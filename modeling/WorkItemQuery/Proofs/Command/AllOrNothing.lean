/-
Runs over many queries. The queries of a run share one memo, but each of them gives what it gives by itself with
the registry alone, also after others have failed or been remembered. If all of them give a statement, a run prints
them in order, each followed by a line feed. If not, it prints nothing, and reports the first query that gives none,
with the error that this query has by itself.
-/
import WorkItemQuery.Command.Basic
import WorkItemQuery.Proofs.Compilation.Simulation
import WorkItemQuery.Proofs.Pipeline.Meaning

namespace WorkItemQuery

open Compilation

namespace Batch

variable {r : Registry} {mode : ProjectionMode}

/-! ## Queries by themselves -/

/-- What a query gives by itself, with the registry and nothing remembered. -/
def own (r : Registry) (mode : ProjectionMode) (source : String) : Except QueryError Output :=
  (compileText .registry mode source r).result

theorem own_of_parse {source : String} {e : Expr} (h : WorkItemQuery.parse source = .ok e) :
    own r mode source = match (compile .registry mode e r).result with
      | .error e => .error (.compile e)
      | .ok s => .ok (.ofStatement s) := by
  unfold own compileText
  rw [h]
  dsimp only
  cases (compile FieldMapper.registry mode e r).result <;> rfl

/-- One query with a memo over the registry: it gives what it gives by itself, and leaves a memo over the registry
behind even where it fails. -/
theorem compileText_isOver {m : Memo Registry} (h : m.IsOver r) (mode : ProjectionMode) (source : String) :
    let c := compileText FieldMapper.registry.memoized mode source m
    c.result = own r mode source ∧ c.fields.IsOver r := by
  unfold own compileText
  cases WorkItemQuery.parse source with
  | error e => exact ⟨rfl, h⟩
  | ok e =>
    obtain ⟨hresult, -, hfields, -⟩ :=
      compile_simulates (memoized_simulates r) mode (e := e) (fun _ _ => trivial) ⟨h, rfl⟩
    dsimp only
    rw [← hresult]
    cases (compile FieldMapper.registry.memoized mode e m).result <;> exact ⟨rfl, hfields⟩

/-- The first query that fails by itself: all before it give an output, and it has the given error. -/
structure FailsFirst (r : Registry) (mode : ProjectionMode) (sources : List String) (index : Nat) (e : QueryError) :
    Prop where
  fails : (sources[index]?).map (own r mode) = some (.error e)
  before : ∀ source ∈ sources.take index, ∃ o, own r mode source = .ok o

/-- How queries in a row end: with the outputs that they have by themselves, or with the first failure. -/
inductive Settled (r : Registry) (mode : ProjectionMode) (first : Nat) (sources : List String) :
    Except Failure (List Output) → Prop
  | all {outputs : List Output} : List.Forall₂ (fun source o => own r mode source = .ok o) sources outputs →
      Settled r mode first sources (.ok outputs)
  | fails {index : Nat} {e : QueryError} : FailsFirst r mode sources index e →
      Settled r mode first sources (.error ⟨first + index, e⟩)

/-- One more query in front of others. -/
theorem Settled.cons {first : Nat} {source : String} {sources : List String} {o : Output}
    {result : Except Failure (List Output)} (ho : own r mode source = .ok o)
    (h : Settled r mode (first + 1) sources result) :
    Settled r mode first (source :: sources) (result.map (o :: ·)) := by
  cases h with
  | all houtputs => exact .all (.cons ho houtputs)
  | @fails index e hfails =>
    have hmore : FailsFirst r mode (source :: sources) (index + 1) e :=
      ⟨hfails.fails, List.forall_mem_cons.2 ⟨⟨o, ho⟩, hfails.before⟩⟩
    rw [Nat.add_right_comm, Nat.add_assoc]
    exact .fails hmore

/-- The first query of several, and the others after it unless it fails. -/
theorem compileAll_cons {σ : Type} (mapper : FieldMapper σ) (mode : ProjectionMode) (first : Nat) (source : String)
    (sources : List String) (fields : σ) :
    compileAll mapper mode first (source :: sources) fields =
      let done := compileText mapper mode source fields
      match done.result with
      | .error e => ⟨.error ⟨first, e⟩, done.fields, done.notices⟩
      | .ok o =>
        let others := compileAll mapper mode (first + 1) sources done.fields
        ⟨others.result.map (o :: ·), others.fields, done.notices ++ doneNotice first o :: others.notices⟩ := by
  rfl

/-- All queries in turn, from any memo over the registry. -/
theorem settled_compileAll (mode : ProjectionMode) : ∀ (sources : List String) {first : Nat} {m : Memo Registry},
    m.IsOver r → Settled r mode first sources (compileAll FieldMapper.registry.memoized mode first sources m).result
  | [], _, _, _ => .all .nil
  | source :: sources, first, m, h => by
    obtain ⟨hresult, hfields⟩ := compileText_isOver h mode source
    rw [compileAll_cons]
    dsimp only
    cases hfirst : (compileText FieldMapper.registry.memoized mode source m).result with
    | error e =>
      have hfails : FailsFirst r mode (source :: sources) 0 e :=
        ⟨congrArg some (hresult.symm.trans hfirst), fun _ hmem => by cases hmem⟩
      exact .fails hfails
    | ok o => exact (settled_compileAll mode sources hfields).cons (hresult.symm.trans hfirst)

theorem FailsFirst.not_ok {sources : List String} {index : Nat} {e : QueryError}
    (h : FailsFirst r mode sources index e) :
    ∃ source, sources[index]? = some source ∧ ¬∃ o, own r mode source = .ok o := by
  obtain ⟨source, hsource, herror⟩ := Option.map_eq_some_iff.1 h.fails
  refine ⟨source, hsource, fun ⟨o, ho⟩ => ?_⟩
  rw [ho] at herror
  cases herror

/-- If all queries give outputs, none fails first. -/
theorem FailsFirst.not_all {sources : List String} {index : Nat} {e : QueryError}
    (h : FailsFirst r mode sources index e) : ¬∀ source ∈ sources, ∃ o, own r mode source = .ok o := by
  obtain ⟨source, hsource, hnot⟩ := h.not_ok
  exact fun hall => hnot (hall source (List.mem_of_getElem? hsource))

theorem FailsFirst.le {sources : List String} {i j : Nat} {e e' : QueryError} (h : FailsFirst r mode sources i e)
    (h' : FailsFirst r mode sources j e') : j ≤ i := by
  obtain ⟨source, hsource, hnot⟩ := h.not_ok
  by_contra hlt
  have hmem : (sources.take j)[i]? = some source := by rw [List.getElem?_take_of_lt (by omega), hsource]
  exact hnot (h'.before source (List.mem_of_getElem? hmem))

/-- Only one query fails first. -/
theorem FailsFirst.unique {sources : List String} {i j : Nat} {e e' : QueryError} (h : FailsFirst r mode sources i e)
    (h' : FailsFirst r mode sources j e') : i = j ∧ e = e' := by
  obtain rfl : i = j := Nat.le_antisymm (h'.le h) (h.le h')
  exact ⟨rfl, Except.error.inj (Option.some.inj (h.fails.symm.trans h'.fails))⟩

end Batch

namespace Command

open Log

/-! ## Stages of a run that change nothing -/

variable {α β : Type}

/-- A stage leaves the directory as it is. -/
def Keeps (x : StateM Directory α) : Prop := ∀ d, (x.run d).2 = d

theorem run_bind {x : StateM Directory α} {f : α → StateM Directory β} {d d' : Directory} {a : α}
    (h : x.run d = (a, d')) : (x >>= f).run d = (f a).run d' := by
  rw [StateT.run_bind, h]
  rfl

namespace Keeps

theorem pure (a : α) : Keeps (Pure.pure a) := fun _ => rfl

theorem bind {x : StateM Directory α} {f : α → StateM Directory β} (hx : Keeps x) (hf : ∀ a, Keeps (f a)) :
    Keeps (x >>= f) := fun d => (hf _ _).trans (hx d)

theorem run_eq {x : StateM Directory α} (h : Keeps x) {d : Directory} {a : α} (ha : (x.run d).1 = a) :
    x.run d = (a, d) := Prod.ext ha (h d)

variable (w : World)

theorem read (path : String) : Keeps (w.host.read path) := fun _ => rfl

theorem lookupAll : ∀ names : List String, Keeps (Command.lookupAll w.host names)
  | [] => .pure []
  | _ :: names => bind (fun _ => rfl) fun _ => (lookupAll names).bind fun _ => .pure _

theorem findVariables : ∀ directories : List String, Keeps (Command.findVariables w.host directories)
  | [] => .pure none
  | directory :: others => (read w (Path.join directory variableFile)).bind fun contents => by
    split
    · exact .pure _
    · exact findVariables others
    · exact findVariables others
    · exact .pure none

theorem environment : Keeps (Command.environment w.host) :=
  bind (fun _ => rfl) fun _ => (findVariables w _).bind fun _ => (lookupAll w _).bind fun _ => .pure _

theorem settings (env : List (String × String)) (a : Arguments) : Keeps (Command.settings w.host env a) := by
  unfold Command.settings
  cases a.config with
  | some path => exact (read w path).bind fun _ => .pure _
  | none =>
    refine bind (fun _ => rfl) fun there => ?_
    cases there with
    | true => exact (read w settingsFile).bind fun _ => .pure _
    | false => exact .pure _

theorem registry (file : Option String) : Keeps (Command.registry w.host file) := by
  unfold Command.registry
  cases file with
  | none => exact .pure _
  | some path =>
    refine (read w path).bind fun contents => ?_
    split
    · exact .pure _
    · split <;> exact .pure _

end Keeps

/-! ## The run up to its queries -/

/-- The variables that a run in a world goes by. -/
def World.variables (w : World) : List (String × String) := ((environment w.host).run w.directory).1

/-- The text of a file, or of the standard input. -/
def sourceText? (w : World) (d : Directory) : QuerySource → Option String
  | .file path => ((d.read path).bind textOfBytes).toOption
  | .input => (textOfBytes w.input).toOption
  | .inline _ => none

/-- A run comes to compile the queries of a text, which is that of a file or of the standard input, with the given
registry and settings. On the way it may make a directory for its log, so files are then read in `d`. -/
inductive ComesTo (w : World) (words : List String) (r : Registry) (s : Settings) (text : String) : Prop
  | intro {a : Arguments} {s₀ : Settings} {d : Directory} (arguments : Arguments.ofWords words = .ok a)
      (settings : ((settings w.host w.variables a).run w.directory).1 = .ok s₀)
      (withArguments : withArguments a s₀ = s)
      (log : (openLog w.host s.log).run w.directory = (.ok (), d))
      (registry : ((registry w.host s.mappingFile).run d).1.1 = .ok r)
      (text : sourceText? w d a.source = some text)

theorem toOption_eq_some {ε α : Type} {x : Except ε α} {a : α} (h : x.toOption = some a) : x = .ok a := by
  cases x with
  | error e => cases h
  | ok b => cases h; rfl

theorem sources_run {w : World} {d : Directory} {source : QuerySource} {text : String}
    (h : sourceText? w d source = some text) :
    (sources w.host source).run d = (.ok (Batch.splitQueries text), d) := by
  unfold sources
  cases source with
  | inline _ => cases h
  | file path =>
    have hread : (w.host.read path).run d = (d.read path, d) := rfl
    rw [run_bind hread, toOption_eq_some h]
    rfl
  | input =>
    have hread : w.host.input.run d = (w.input, d) := rfl
    rw [run_bind hread, toOption_eq_some h]
    rfl

/-- A run that comes to compile queries ends as they do. -/
theorem ending_runIn {w : World} {words : List String} {r : Registry} {s : Settings} {text : String}
    (h : ComesTo w words r s text) :
    (runIn w words).ending = .ofResult (compileQueries r s (Batch.splitQueries text)).1 := by
  obtain @⟨a, s₀, d, harguments, hsettings, hs, hlog, hr, htext⟩ := h
  have hregistry : (registry w.host s.mappingFile).run d = ((.ok r, ((registry w.host s.mappingFile).run d).1.2), d) :=
    (Keeps.registry w _).run_eq (Prod.ext hr rfl)
  have hunder : ((underLog w.host a s).run d).1.1 = (compileQueries r s (Batch.splitQueries text)).1 := by
    unfold underLog
    rw [run_bind hregistry]
    dsimp only
    rw [run_bind (sources_run htext)]
    rfl
  -- the stages one after another; only the log may change the directory
  unfold runIn run
  rw [run_bind ((Keeps.environment w).run_eq (a := w.variables) rfl), harguments]
  dsimp only
  rw [run_bind ((Keeps.settings w w.variables a).run_eq hsettings)]
  dsimp only
  rw [hs, run_bind hlog]
  dsimp only
  rw [← hunder]
  rfl

/-! ## All or nothing -/

/-- The queries of a run, if there are any: all their outputs are printed, or the first failure is reported. -/
theorem compileQueries_of_settled {r : Registry} {s : Settings} {queries : List String} (hne : queries ≠ []) :
    (∃ outputs, List.Forall₂ (fun q o => Batch.own r s.projection q = .ok o) queries outputs ∧
      (compileQueries r s queries).1 = .ok (Batch.render s.format outputs)) ∨
    (∃ index e, Batch.FailsFirst r s.projection queries index e ∧
      (compileQueries r s queries).1 = .error (.query (index + 1) queries.length e)) := by
  have hnew : (Memo.new r).IsOver r := ⟨rfl, fun _ _ _ h => by cases h⟩
  have hsettled : Batch.Settled r s.projection 0 queries _ := Batch.settled_compileAll s.projection queries hnew
  unfold compileQueries
  rw [if_neg (by simpa using hne)]
  dsimp only
  generalize (Batch.compileAll FieldMapper.registry.memoized s.projection 0 queries (Memo.new r)).result = result at *
  cases hsettled with
  | all houtputs => exact .inl ⟨_, houtputs, rfl⟩
  | @fails index e hfails => exact .inr ⟨index, e, hfails, by rw [Nat.zero_add]⟩

open Number in
/-- If every query of a text gives an output by itself, a run prints all of them in order, each followed by a line
feed. If not, it prints nothing and reports the first query that fails by itself, with its own stage and error. -/
theorem run_allOrNothing (r : Registry) (s : Settings) (text : String) (hne : Batch.splitQueries text ≠ []) :
    let queries := Batch.splitQueries text
    let own := Batch.own r s.projection
    ((∀ q ∈ queries, ∃ o, own q = .ok o) →
      ∃ outputs, List.Forall₂ (fun q o => own q = .ok o) queries outputs ∧
        let printed := String.join (outputs.map fun o => o.render s.format ++ "\n")
        (compileQueries r s queries).1 = .ok printed ∧
        ∀ w words, ComesTo w words r s text →
          (runIn w words).printed = printed ∧ (runIn w words).exitCode = 0 ∧ (runIn w words).report? = none) ∧
    ((¬∀ q ∈ queries, ∃ o, own q = .ok o) →
      ∃ index e, Batch.FailsFirst r s.projection queries index e ∧
        (compileQueries r s queries).1 = .error (.query (index + 1) queries.length e) ∧
        ∀ w words, ComesTo w words r s text →
          (runIn w words).printed = "" ∧ (runIn w words).exitCode = 1 ∧ (runIn w words).report? = some (report
            ("Query " ++ intText (index + 1) ++ " of " ++ intText queries.length) (e.stage :: e.causes))) := by
  intro queries own
  rcases compileQueries_of_settled (r := r) (s := s) hne with ⟨outputs, houtputs, hresult⟩ | ⟨index, e, hfails, hresult⟩
  · have hall : ∀ q ∈ queries, ∃ o, own q = .ok o :=
      ((List.forall₂_and_left queries outputs).1 (houtputs.imp fun _ o ho => ⟨⟨o, ho⟩, ho⟩)).1
    refine ⟨fun _ => ⟨outputs, houtputs, hresult, fun w words h => ?_⟩, fun hnot => absurd hall hnot⟩
    have hending : (runIn w words).ending = .printed (Batch.render s.format outputs) := by
      rw [ending_runIn h, hresult]
      rfl
    unfold Run.printed Run.exitCode Run.report?
    rw [hending]
    exact ⟨rfl, rfl, rfl⟩
  · refine ⟨fun hall => absurd hall hfails.not_all, fun _ => ⟨index, e, hfails, hresult, fun w words h => ?_⟩⟩
    have hending : (runIn w words).ending = .failed (.query (index + 1) queries.length e) := by
      rw [ending_runIn h, hresult]
      rfl
    unfold Run.printed Run.exitCode Run.report?
    rw [hending]
    exact ⟨rfl, rfl, rfl⟩

theorem textOfBytes_toUTF8 (text : String) : textOfBytes text.toUTF8 = .ok text := by
  unfold textOfBytes
  simp [String.fromUTF8?, String.fromUTF8, text.isValidUTF8]

/-- A run without arguments in an empty directory comes to the queries of its standard input. -/
theorem comesTo_input (text : String) : ComesTo ⟨⟨[], []⟩, [], text.toUTF8⟩ [] .builtin {} text := by
  refine @ComesTo.intro _ _ _ _ _ {} {} ⟨[], []⟩ ?arguments ?settings ?withArguments ?log ?registry ?text
  case arguments => rfl
  case settings => rfl
  case withArguments => rfl
  case log => rfl
  case registry => rfl
  case text =>
    show (textOfBytes text.toUTF8).toOption = some text
    rw [textOfBytes_toUTF8]
    rfl

open Pipeline in
/-- Two queries that give statements, and three of which the second cannot be compiled and the third is no query. -/
theorem run_allOrNothing_input :
    let own := Batch.own .builtin .explicit
    let run (text : String) := runIn ⟨⟨[], []⟩, [], text.toUTF8⟩ []
    (∃ bug task, own "from Bug | select Id" = .ok bug ∧ own "from Task" = .ok task ∧
      (run "from Bug | select Id\n\nfrom Task").printed = bug.text ++ "\n" ++ (task.text ++ "\n")) ∧
    (run "from Task\n\nfrom Bug | select Rank\n\nfrom").printed = "" ∧
    (run "from Task\n\nfrom Bug | select Rank\n\nfrom").report? = some
      ("Error: Query 2 of 3\n\nCaused by:\n    0: Failed to translate query\n"
        ++ "    1: Unknown field: no mapping for property 'Rank' on entity 'Bug'") := by
  intro own run
  have hbug : parse "from Bug | select Id" = .ok (.select (Expr.table "Bug") (.fields ["Id"])) :=
    parse_ok_iff.2 ⟨⟨"Bug", [.select (.fields ["Id"])]⟩, by decide +kernel, rfl⟩
  have htask : parse "from Task" = .ok (Expr.table "Task") := parse_ok_iff.2 ⟨⟨"Task", []⟩, by decide +kernel, rfl⟩
  have hrank : parse "from Bug | select Rank" = .ok (.select (Expr.table "Bug") (.fields ["Rank"])) :=
    parse_ok_iff.2 ⟨⟨"Bug", [.select (.fields ["Rank"])]⟩, by decide +kernel, rfl⟩
  obtain ⟨bug, hbug⟩ : ∃ o, own "from Bug | select Id" = .ok o := by
    rw [show own _ = _ from Batch.own_of_parse hbug]
    exact ⟨_, rfl⟩
  obtain ⟨task, htask⟩ : ∃ o, own "from Task" = .ok o := by
    rw [show own _ = _ from Batch.own_of_parse htask]
    exact ⟨_, rfl⟩
  have hrank : own "from Bug | select Rank" = .error (.compile (.unknownField ⟨"Bug", "Rank"⟩)) := by
    rw [show own _ = _ from Batch.own_of_parse hrank]
    rfl
  constructor
  · let text := "from Bug | select Id\n\nfrom Task"
    have hsplit : Batch.splitQueries text = ["from Bug | select Id", "from Task"] := by decide +kernel
    obtain ⟨outputs, houtputs, -, hrun⟩ := (run_allOrNothing .builtin {} text (by rw [hsplit]; simp)).1
      (by rw [hsplit]; simpa using ⟨⟨bug, hbug⟩, ⟨task, htask⟩⟩)
    rw [hsplit] at houtputs
    have houtputs : outputs = [bug, task] := by
      rcases houtputs with _ | ⟨hfirst, _ | ⟨hsecond, ⟨⟩⟩⟩
      rw [← Except.ok.inj (hbug.symm.trans hfirst), ← Except.ok.inj (htask.symm.trans hsecond)]
    have hprinted := (hrun _ [] (comesTo_input text)).1
    rw [houtputs] at hprinted
    exact ⟨bug, task, hbug, htask, hprinted.trans (by simp [String.join, Batch.Output.render])⟩
  · let text := "from Task\n\nfrom Bug | select Rank\n\nfrom"
    have hsplit : Batch.splitQueries text = ["from Task", "from Bug | select Rank", "from"] := by decide +kernel
    obtain ⟨index, e, hfails, -, hrun⟩ := (run_allOrNothing .builtin {} text (by rw [hsplit]; simp)).2
      (by rw [hsplit]; intro hall; obtain ⟨o, ho⟩ := hall "from Bug | select Rank" (by simp); cases hrank.symm.trans ho)
    rw [hsplit] at hfails
    -- the first query gives an output and the second none, so the second fails first
    obtain ⟨rfl, rfl⟩ := hfails.unique (j := 1) ⟨congrArg some hrank, List.forall_mem_singleton.2 ⟨task, htask⟩⟩
    obtain ⟨hprinted, -, hreport⟩ := hrun _ [] (comesTo_input text)
    rw [hsplit] at hreport
    exact ⟨hprinted, hreport.trans (by decide +kernel)⟩

end Command

end WorkItemQuery
