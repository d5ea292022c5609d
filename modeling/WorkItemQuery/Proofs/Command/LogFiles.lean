/-
What the log of a run leaves behind. A run changes nothing where it runs, save that it makes the directory of its log
if the log is to go to a file; the directory is there afterwards, in the place that its path names, and no file is lost.
In a log file a notice takes one line, and one more for each line break in its values.
-/
import WorkItemQuery.Proofs.Command.AllOrNothing
import WorkItemQuery.Proofs.Files.Directory

namespace WorkItemQuery

/-! ## Lines -/

namespace Log.Notice

/-- The number of line breaks in a text. -/
def breaks (s : String) : Nat := s.toList.count '\n'

theorem breaks_append (s t : String) : breaks (s ++ t) = breaks s + breaks t := by
  rw [breaks, String.toList_append, List.count_append]
  rfl

theorem breaks_join_cons (text : String) (texts : List String) :
    breaks (String.join (text :: texts)) = breaks text + breaks (String.join texts) := by
  rw [String.join_cons, breaks_append]

/-- Texts with as many breaks each have as many in a row. -/
theorem breaks_join_congr {α : Type} {f g : α → String} : ∀ {as : List α}, (∀ a ∈ as, breaks (f a) = breaks (g a)) →
    breaks (String.join (as.map f)) = breaks (String.join (as.map g))
  | [], _ => rfl
  | a :: as, h => by
    obtain ⟨hfirst, hrest⟩ := List.forall_mem_cons.1 h
    rw [List.map_cons, List.map_cons, breaks_join_cons, breaks_join_cons, hfirst, breaks_join_congr hrest]

theorem foldl_breaks : ∀ (fields : List (String × Value)) (lines : Nat),
    fields.foldl (fun lines f => lines + (valueText f.2).toList.count '\n') lines =
      lines + breaks (String.join (fields.map fun f => valueText f.2))
  | [], _ => rfl
  | f :: fields, lines => by
    rw [List.foldl_cons, foldl_breaks fields, List.map_cons, breaks_join_cons, ← Nat.add_assoc]
    rfl

theorem breaks_level (l : Level) : breaks l.name = 0 := by
  cases l <;> decide

theorem breaks_target (n : Notice) : breaks n.target = 0 := by
  cases n <;> simp only [target] <;> decide

/-- The names of values are words. -/
theorem breaks_key (n : Notice) : ∀ f ∈ n.fields, breaks f.1 = 0 := by
  cases n <;> simp only [fields, List.forall_mem_cons] <;> decide

/-- A notice takes as many lines in a log file as its text has. -/
theorem fileLines_eq (n : Notice) : n.fileLines = n.lineText.toList.count '\n' + 1 := by
  have hfield : ∀ f ∈ n.fields, breaks (if f.1 = "message" then " " ++ valueText f.2 else
      " " ++ f.1 ++ "=" ++ valueText f.2) = breaks (valueText f.2) := by
    intro f hf
    have hblank : breaks " " = 0 := by decide
    have hequals : breaks "=" = 0 := by decide
    split
    · rw [breaks_append, hblank, Nat.zero_add]
    · rw [breaks_append, breaks_append, breaks_append, hblank, n.breaks_key f hf, hequals, Nat.zero_add]
  have htext : breaks n.lineText = breaks (String.join (n.fields.map fun f => valueText f.2)) := by
    have hblank : breaks " " = 0 := by decide
    have hcolon : breaks ":" = 0 := by decide
    rw [lineText, breaks_append, breaks_append, breaks_append, breaks_append, breaks_level, breaks_target, hblank,
      hcolon, breaks_join_congr hfield, Nat.zero_add]
  rw [fileLines, foldl_breaks, ← htext, Nat.add_comm]
  rfl

end Log.Notice

/-! ## The directory of a run -/

namespace Command

open Log Directory

namespace Keeps

theorem sources (w : World) (source : QuerySource) : Keeps (Command.sources w.host source) := by
  unfold Command.sources
  cases source with
  | inline _ => exact .pure _
  | file path =>
    refine (read w path).bind fun contents => ?_
    split <;> exact .pure _
  | input =>
    refine bind (fun _ => rfl) fun bytes => ?_
    split <;> exact .pure _

theorem underLog (w : World) (a : Arguments) (s : Settings) : Keeps (Command.underLog w.host a s) := by
  refine (registry w s.mappingFile).bind fun (result, notices) => ?_
  cases result with
  | error e => exact .pure _
  | ok r =>
    refine (sources w a.source).bind fun queries => ?_
    cases queries with
    | error e => exact .pure _
    | ok queries => exact .pure _

end Keeps

theorem makeDirectory_run (w : World) (path : String) (d : Directory) :
    (w.host.makeDirectory path).run d = match d.make path with
      | .ok made => (.ok (), made)
      | .error e => (.error e, d) := by
  show StateT.run (match d.make path with
    | .ok made => (do set made; return .ok () : StateM Directory (Except FileError Unit))
    | .error e => return .error e) d = _
  cases d.make path <;> rfl

/-- A log that goes to a file makes its directory when it is opened; nothing else happens. -/
theorem openLog_run (w : World) (s : LogSettings) (d : Directory) :
    (openLog w.host s).run d =
      if (Output.ofText s.output).toFile then
        match d.make s.directory with
        | .ok made => (.ok (), made)
        | .error e => (.error (.logDirectory e), d)
      else (.ok (), d) := by
  unfold openLog
  split
  · have hhost := makeDirectory_run w s.directory d
    cases hmake : d.make s.directory with
    | ok made | error e =>
      rw [hmake] at hhost
      rw [run_bind hhost]
      rfl
  · rfl

/-- What a run leaves of the directory in which it runs. -/
def World.after (w : World) (words : List String) : Directory := ((run w.host words).run w.directory).2

/-- A run without a log, or with one that goes to no file, changes nothing; any other makes the directory of its log. -/
theorem after_eq (w : World) (words : List String) :
    match (runIn w words).log with
    | none => w.after words = w.directory
    | some log =>
      if log.output.toFile then w.directory.make log.directory = .ok (w.after words)
      else w.after words = w.directory := by
  unfold runIn World.after run
  rw [run_bind ((Keeps.environment w).run_eq (a := w.variables) rfl)]
  cases Arguments.ofWords words with
  | error e => rfl
  | ok a =>
    dsimp only
    rcases hsettings : ((settings w.host w.variables a).run w.directory).1 with e | s₀
    · rw [run_bind ((Keeps.settings w w.variables a).run_eq hsettings)]
      rfl
    · rw [run_bind ((Keeps.settings w w.variables a).run_eq hsettings)]
      dsimp only
      generalize withArguments a s₀ = s
      have hopen := openLog_run w s.log w.directory
      -- under the log nothing changes any more
      have hunder : ∀ d, (underLog w.host a s).run d = (((underLog w.host a s).run d).1, d) :=
        fun d => (Keeps.underLog w a s).run_eq rfl
      cases htoFile : (Output.ofText s.log.output).toFile with
      | false =>
        rw [htoFile] at hopen
        rw [run_bind hopen]
        dsimp only
        rw [run_bind (hunder _)]
        show if (Output.ofText s.log.output).toFile then _ else w.directory = w.directory
        rw [htoFile]
        rfl
      | true =>
        rw [htoFile] at hopen
        cases hmake : w.directory.make s.log.directory with
        | error e =>
          rw [hmake] at hopen
          rw [run_bind hopen]
          rfl
        | ok made =>
          rw [hmake] at hopen
          rw [run_bind hopen]
          dsimp only
          rw [run_bind (hunder _)]
          show if (Output.ofText s.log.output).toFile then w.directory.make s.log.directory = .ok made else _
          rw [htoFile]
          exact hmake

/-- A run loses no file and no directory. If its log goes to a file, the directory of the log is there afterwards, in
the place that its path names. -/
theorem after_run (w : World) (words : List String) :
    Extends w.directory (w.after words) ∧
      ∀ log, (runIn w words).log = some log → log.output.toFile = true → log.directory.isEmpty = false →
        (w.after words).hasFolder log.directory = true ∧
          (Path.isAbsolute log.directory = false →
            Directory.entry? (w.after words) (Path.climb [] (Path.names log.directory)) = some .directory) := by
  have hafter := after_eq w words
  have hsame : w.after words = w.directory → Extends w.directory (w.after words) := fun h => by
    rw [h]
    exact .refl _
  cases hlog : (runIn w words).log with
  | none =>
    rw [hlog] at hafter
    exact ⟨hsame hafter, fun _ h => by cases h⟩
  | some log =>
    rw [hlog] at hafter
    dsimp only at hafter
    cases htoFile : log.output.toFile with
    | false =>
      rw [htoFile] at hafter
      refine ⟨hsame hafter, ?_⟩
      rintro _ ⟨⟩ h
      rw [htoFile] at h
      cases h
    | true =>
      rw [htoFile] at hafter
      obtain ⟨hextends, hfolder⟩ := make_ok hafter
      refine ⟨hextends, ?_⟩
      rintro _ ⟨⟩ - hne
      refine ⟨hfolder hne, fun hrelative => ?_⟩
      obtain ⟨place, hplace, hentry⟩ := find_eq_ok.1 (hasFolder_iff_find.1 (hfolder hne))
      rw [← place_eq_climb hplace hrelative]
      exact hentry

end Command

end WorkItemQuery
