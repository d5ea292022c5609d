/-
Instants in queries. Any text that RFC 3339 has for an instant is read as the instant, wherever the clock stands that
shows it. The text of an instant in a statement leaves out what is below a millisecond, and nothing else: in a query, as
a date or as the time of a view, it stands for the instant cut down to whole milliseconds.
-/
import WorkItemQuery.Proofs.Pipeline.Breaks
import WorkItemQuery.Proofs.Pipeline.Meaning
import WorkItemQuery.Proofs.Time.Calendar

namespace WorkItemQuery.Pipeline

open Text Time

/-! ## One more step -/

/-- Tokens behind a whole text, from the next line on. -/
theorem Layout.append {t : Token} {ts us : List Token} {cs ds : List Char} (h : Layout ts cs)
    (h' : Layout (t :: us) ds) : Layout (ts ++ t :: us) (cs ++ '\n' :: ds) := by
  obtain ⟨gap, hlaid, hgap⟩ := h
  obtain ⟨rest, hlaid', hrest⟩ := h'
  obtain ⟨w, rfl, -, -, hchange⟩ := hlaid.change
  have hbehind : Laid (t :: us) (gap ++ '\n' :: ds) rest := by
    have hfeed := hlaid'.gap_append hgap.feed
    rwa [List.append_assoc] at hfeed
  refine ⟨rest, ?_, hrest⟩
  rw [List.append_assoc]
  exact (hchange _ (head_append_feed gap ds)).append hbehind

/-- A query goes on with a step on the next line. -/
theorem parse_append {q text : String} {cs : List Char} {e e' : Expr} {s : Step} {us : List Token}
    (h : parse q = .ok e) (htext : text.toList = q.toList ++ '\n' :: cs) (hs : StepWritten s us)
    (hl : Laid (.sign '|' :: us) cs []) (happly : s.apply e = .ok e') : parse text = .ok e' := by
  obtain ⟨p, hp, he⟩ := parse_ok_iff.1 h
  obtain ⟨ts, hsteps, hlayout⟩ := ofText_ok_iff.1 hp
  have hquery : SaysQuery e (.word "from" :: .name p.entity :: ts) := ⟨p.entity, p.steps, ts, rfl, hsteps, he⟩
  refine (hquery.step hs happly).parse_eq ?_
  rw [htext]
  exact hlayout.append ⟨[], hl, .gap .nil⟩

theorem Laid.step {w : String} {ts : List Token} {cs : List Char} (hw : w ∈ keywords) (hlower : SpellsWord w w.toList)
    (h : Laid ts (' ' :: cs) []) : Laid (.sign '|' :: .word w :: ts) ('|' :: ' ' :: (w.toList ++ ' ' :: cs)) [] := by
  have hlaid : Laid (.sign '|' :: .word w :: ts) ([] ++ ['|'] ++ ([' '] ++ w.toList ++ ' ' :: cs)) [] :=
    .cons .nil ⟨by decide, rfl⟩ trivial
      (.cons (.blank (by decide) .nil) ⟨hw, hlower⟩ (by rintro c ⟨⟩; decide) h)
  simpa using hlaid

/-! ## Quoted instants -/

theorem laid_string (s : String) : Laid [.string s] (' ' :: quoteChars s.toList) [] := by
  have hlaid : Laid [.string s] ([' '] ++ quoteChars s.toList ++ []) [] :=
    .cons (.blank (by decide) .nil) rfl trivial .nil
  simpa using hlaid

theorem laid_date (s : String) : Laid [.date s] (' ' :: ("date".toList ++ quoteChars s.toList)) [] := by
  have hlaid : Laid [.date s] ([' '] ++ ("date".toList ++ quoteChars s.toList) ++ []) [] :=
    .cons (.blank (by decide) .nil) ⟨_, by decide, rfl⟩ trivial .nil
  simpa using hlaid

section

variable {q s : String} {e : Expr} {t : Timestamp}

theorem parse_asOf (h : parse q = .ok e) (hs : Timestamp.ofQueryText? s = some t) :
    parse (q ++ "\n| asof " ++ quote s) = .ok (.asOf e t) ∧
      parse (q ++ "\n| asof date" ++ quote s) = .ok (.asOf e t) := by
  have happly : (Step.asOf s).apply e = .ok (.asOf e t) := by
    rw [Step.apply, timeOf, hs]
    rfl
  have hstring := (laid_string s).step (w := "asof") (by decide) (by decide)
  have hdate := (laid_date s).step (w := "asof") (by decide) (by decide)
  exact ⟨parse_append h (by simp [quote]) .asOfString hstring happly,
    parse_append h (by simp [quote]) .asOfDate hdate happly⟩

theorem parse_date {n sign : String} {op : BinaryOp} (h : parse q = .ok e) (hs : Timestamp.ofQueryText? s = some t)
    (hn : IsName n) (hsign : sign ∈ comparisonSigns op) :
    parse (q ++ "\n| where " ++ n ++ " " ++ sign ++ " date" ++ quote s) =
      .ok (.filter e (Expr.itLambda (.binary op (Expr.field n) (.constant (.timestamp t))))) := by
  have hconstant : (Literal.timestamp s).constant = .ok (.timestamp t) := by
    rw [Literal.constant, timeOf, hs]
    rfl
  have htest : Written .whole (.test (.name n) (.compare op) (.timestamp s)) [.name n, .comparison op, .date s] :=
    .term (.factor (.test fun _ h => by cases h))
  have hlaid : Laid [.name n, .comparison op, .date s]
      ([' '] ++ n.toList ++ ([' '] ++ sign.toList ++ ' ' :: ("date".toList ++ quoteChars s.toList))) [] :=
    .cons (.blank (by decide) .nil) ⟨hn, rfl⟩ (by rintro c ⟨⟩; decide)
      (.cons (.blank (by decide) .nil) ⟨sign, hsign, rfl⟩ trivial (laid_date s))
  refine parse_append h ?_ (.filter htest) (Laid.step (w := "where") (by decide) (by decide) hlaid) ?_
  · simp [quote]
  · rw [Step.apply, Condition.toExpr, hconstant]
    rfl

end

/-- A clock less than a day away from universal time shows every instant, in one way, and what it shows is read as the
instant if the year has four digits. The text of an instant in a statement is read as the instant cut down to whole
milliseconds, also where a query asks for a view of that time or compares a field with that date. -/
theorem ofQueryText?_of_isLocal :
    (∀ (t : Timestamp) (offset : Int), -1440 < offset → offset < 1440 → OffsetText offset (zoneChars offset) ∧
      (firstYear < t.date.year → t.date.year < lastYear → ∃! here, t.IsLocal offset here)) ∧
    (∀ (t here : Timestamp) (offset : Int) (divider : Char) (zone : List Char), t.IsLocal offset here →
      here.HasShortYear → isDivider divider = true → OffsetText offset zone →
        Timestamp.ofQueryText? (here.fullText divider zone) = some t) ∧
    ∀ t : Timestamp, t.HasShortYear → Timestamp.ofQueryText? t.statementText = some t.toMillis ∧
      ∀ (q : String) (e : Expr), parse q = .ok e →
        parse (q ++ "\n| asof " ++ quote t.statementText) = .ok (.asOf e t.toMillis) ∧
        parse (q ++ "\n| asof date" ++ quote t.statementText) = .ok (.asOf e t.toMillis) ∧
        ∀ (n sign : String) (op : BinaryOp), IsName n → sign ∈ comparisonSigns op →
          parse (q ++ "\n| where " ++ n ++ " " ++ sign ++ " date" ++ quote t.statementText) =
            .ok (.filter e (Expr.itLambda (.binary op (Expr.field n) (.constant (.timestamp t.toMillis))))) := by
  refine ⟨fun t offset hlow hhigh => ⟨offsetText_zoneChars hlow hhigh, Timestamp.existsUnique_isLocal hlow hhigh⟩,
    fun t here offset divider zone hlocal hyear hdivider hzone => ?_, fun t hyear => ?_⟩
  · exact ofQueryText?_rfc3339 (hlocal.rfc3339 hyear hdivider hzone)
  · have hread : Timestamp.ofQueryText? t.statementText = some t.toMillis :=
      ofQueryText?_rfc3339 (Timestamp.rfc3339_statementText hyear)
    refine ⟨hread, fun q e h => ?_⟩
    obtain ⟨hstring, hdate⟩ := parse_asOf h hread
    exact ⟨hstring, hdate, fun n sign op hn hsign => parse_date h hread hn hsign⟩

/-- A leap second on a leap day, on a clock where the next month has begun. -/
theorem ofQueryText?_of_isLocal_leap :
    let t : Timestamp := ⟨⟨2000, 2, 29, by decide⟩, 23, 30, 60, 123456789⟩
    let here : Timestamp := ⟨⟨2000, 3, 1, by decide⟩, 0, 15, 60, 123456789⟩
    t.IsLocal 45 here ∧ Timestamp.ofQueryText? "2000-03-01T00:15:60.123456789+00:45" = some t ∧
      parse "from Bug\n| asof '2000-02-29T23:30:60.123Z'" = .ok (.asOf (Expr.table "Bug") t.toMillis) := by
  intro t here
  have hlocal : t.IsLocal 45 here := ⟨by decide +kernel, rfl, rfl⟩
  have hbug : parse "from Bug" = .ok (Expr.table "Bug") := parse_ok_iff.2 ⟨⟨"Bug", []⟩, by decide +kernel, rfl⟩
  have hfull : here.fullText 'T' (zoneChars 45) = "2000-03-01T00:15:60.123456789+00:45" := by decide +kernel
  have hstatement : quote t.statementText = "'2000-02-29T23:30:60.123Z'" := by decide +kernel
  obtain ⟨hzone, hread, htext⟩ := ofQueryText?_of_isLocal
  refine ⟨hlocal, ?_, ?_⟩
  · rw [← hfull]
    exact hread t here 45 'T' (zoneChars 45) hlocal (by decide) rfl (hzone t 45 (by decide) (by decide)).1
  · have hasOf := ((htext t (by decide)).2 "from Bug" _ hbug).1
    rwa [hstatement] at hasOf

end WorkItemQuery.Pipeline
