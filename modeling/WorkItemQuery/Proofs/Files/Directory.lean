/-
Paths in a directory that is a value. Where a relative path leads is settled by its names: whatever stands in the
directory, a path that leads anywhere leads to the place that is left once dots are dropped and each name is taken away
with the two dots behind it. To make a directory is to find it there afterwards, with everything that was there before,
and to make it again changes nothing. A file is read at the path that it was put at.
-/
import WorkItemQuery.Files.Directory

namespace WorkItemQuery

/-! ## Pieces of a path -/

namespace Path

theorem slash_not_mem_of_mem_splitSlashes : ∀ {cs piece : List Char}, piece ∈ splitSlashes cs → '/' ∉ piece
  | [], piece, h => by
    rw [List.mem_singleton.1 h]
    exact List.not_mem_nil
  | c :: rest, piece, h => by
    have hrest : ∀ piece ∈ splitSlashes rest, '/' ∉ piece := fun _ => slash_not_mem_of_mem_splitSlashes
    rw [splitSlashes] at h
    split at h
    · rcases List.mem_cons.1 h with rfl | h
      · exact List.not_mem_nil
      · exact hrest piece h
    · rename_i hc
      split at h
      · rw [List.mem_singleton.1 h, List.mem_singleton]
        exact fun heq => hc heq.symm
      · rename_i first more hsplit
        rw [hsplit] at hrest
        rcases List.mem_cons.1 h with rfl | h
        · rw [List.mem_cons, not_or]
          exact ⟨fun heq => hc heq.symm, hrest first List.mem_cons_self⟩
        · exact hrest piece (List.mem_cons_of_mem _ h)

theorem root_not_mem_pieces (path : String) : "/" ∉ pieces path := by
  intro h
  obtain ⟨piece, hpiece, heq⟩ := List.mem_map.1 h
  have hslash : piece = ['/'] := by
    rw [← String.toList_ofList (l := piece), heq]
    rfl
  exact slash_not_mem_of_mem_splitSlashes hpiece (by rw [hslash]; exact List.mem_singleton.2 rfl)

/-- Nothing but empty pieces is dropped at the end. -/
theorem trimSlashes_append (ps : List String) : ∃ more, ps = trimSlashes ps ++ more ∧ ∀ p ∈ more, p = "" := by
  refine ⟨(ps.reverse.takeWhile (· == "")).reverse, ?_, fun p hp => ?_⟩
  · rw [trimSlashes, ← List.reverse_append, List.takeWhile_append_dropWhile, List.reverse_reverse]
  · simpa using List.all_eq_true.1 List.all_takeWhile p (List.mem_reverse.1 hp)

end Path

namespace Directory

open WorkItemQuery.Path

variable {d d' : Directory}

/-! ## Ways -/

/-- One piece of a path leads from a place to the next. -/
inductive Leads (piece : String) (here : List String) : List String → Prop
  | idle : isIdle piece = true → Leads piece here here
  | up : piece = ".." → Leads piece here (above here)
  | name : isIdle piece = false → piece ≠ ".." → piece.utf8ByteSize ≤ nameLimit → Leads piece here (here ++ [piece])

/-- Each piece leads on from a directory. -/
theorem locate_cons_eq_ok {piece : String} {rest here place : List String} :
    d.locate here (piece :: rest) = .ok place ↔
      d.entry? here = some .directory ∧ ∃ next, Leads piece here next ∧ d.locate next rest = .ok place := by
  rw [locate]
  cases d.entry? here with
  | none => simp
  | some e =>
    cases e with
    | file _ => simp
    | directory =>
      simp only [true_and]
      split
      · rename_i hidle
        refine ⟨fun h => ⟨here, .idle hidle, h⟩, ?_⟩
        rintro ⟨_, hleads, h⟩
        cases hleads with
        | idle _ => exact h
        | up hup => rw [hup] at hidle; cases hidle
        | name hnot _ _ => rw [hnot] at hidle; cases hidle
      · rename_i hidle
        split
        · rename_i hup
          refine ⟨fun h => ⟨above here, .up hup, h⟩, ?_⟩
          rintro ⟨_, hleads, h⟩
          cases hleads with
          | idle hnot => exact absurd hnot hidle
          | up _ => exact h
          | name _ hnot _ => exact absurd hup hnot
        · rename_i hup
          split
          · rename_i hlong
            refine ⟨fun h => (by cases h), ?_⟩
            rintro ⟨_, hleads, h⟩
            cases hleads with
            | idle hnot => exact absurd hnot hidle
            | up hnot => exact absurd hnot hup
            | name _ _ hshort => exact absurd hlong (Nat.not_lt.2 hshort)
          · rename_i hlong
            refine ⟨fun h => ⟨_, .name (by simpa using hidle) hup (Nat.not_lt.1 hlong), h⟩, ?_⟩
            rintro ⟨_, hleads, h⟩
            cases hleads with
            | idle hnot => exact absurd hnot hidle
            | up hnot => exact absurd hnot hup
            | name _ _ _ => exact h

/-- What every path must be, whatever it leads to. -/
structure IsPath (path : String) : Prop where
  noNul : '\x00' ∉ path.toList
  short : path.utf8ByteSize ≤ Path.limit
  nonempty : path.isEmpty = false

theorem place_eq_ok {path : String} {pieces place : List String} : d.place path pieces = .ok place ↔
    IsPath path ∧ d.locate (if isAbsolute path then ["/"] else []) pieces = .ok place := by
  unfold Directory.place
  split
  · rename_i hnul
    exact ⟨fun h => (by cases h), fun h => absurd (List.contains_iff_mem.1 hnul) h.1.noNul⟩
  · rename_i hnul
    split
    · rename_i hlong
      exact ⟨fun h => (by cases h), fun h => absurd hlong (Nat.not_lt.2 h.1.short)⟩
    · rename_i hlong
      split
      · rename_i hempty
        refine ⟨fun h => (by cases h), fun h => ?_⟩
        rw [h.1.nonempty] at hempty
        cases hempty
      · rename_i hempty
        have hpath : IsPath path :=
          ⟨fun hmem => hnul (List.contains_iff_mem.2 hmem), Nat.not_lt.1 hlong, by simpa using hempty⟩
        exact ⟨fun h => ⟨hpath, h⟩, fun h => h.2⟩

theorem find_eq_ok {path : String} {e : Entry} : d.find path = .ok e ↔
    ∃ place, d.place path (pieces path) = .ok place ∧ d.entry? place = some e := by
  unfold Directory.find
  rcases d.place path (pieces path) with err | place
  · exact ⟨fun h => (by cases h), fun ⟨_, h, _⟩ => (by cases h)⟩
  · simp only [bind, Except.bind, Except.ok.injEq, exists_eq_left']
    cases d.entry? place <;> simp

/-! ## Where a path leads -/

/-- A place that is not left again on the way to it: two dots stand in front of all other names. -/
def IsDirect (place : List String) : Prop := ∃ n names, place = List.replicate n ".." ++ names ∧ ".." ∉ names

theorem isDirect_snoc {here : List String} {name : String} (h : IsDirect here) (hname : name ≠ "..") :
    IsDirect (here ++ [name]) := by
  obtain ⟨n, names, rfl, hnames⟩ := h
  refine ⟨n, names ++ [name], List.append_assoc _ _ _, ?_⟩
  rw [List.mem_append, List.mem_singleton]
  rintro (hmem | rfl)
  · exact hnames hmem
  · exact hname rfl

theorem all_up_iff {n : Nat} {names : List String} (h : ".." ∉ names) :
    (List.replicate n ".." ++ names).all (· == "..") = true ↔ names = [] := by
  rw [List.all_append, Bool.and_eq_true]
  constructor
  · rintro ⟨-, hall⟩
    cases names with
    | nil => rfl
    | cons name names =>
      have hname : name = ".." := by simpa using List.all_eq_true.1 hall name List.mem_cons_self
      exact absurd (hname ▸ List.mem_cons_self) h
  · rintro rfl
    exact ⟨by simp, rfl⟩

/-- From such a place two dots lead up, to such a place again. -/
theorem climb_up {here : List String} (h : IsDirect here) (hroot : "/" ∉ here) (rest : List String) :
    climb here (".." :: rest) = climb (above here) rest ∧ IsDirect (above here) ∧ "/" ∉ above here := by
  obtain ⟨n, names, rfl, hnames⟩ := h
  have hne : (List.replicate n ".." ++ names == ["/"]) = false := by
    rw [beq_eq_false_iff_ne]
    exact fun heq => hroot (heq ▸ List.mem_singleton.2 rfl)
  rcases List.eq_nil_or_concat names with rfl | ⟨front, last, rfl⟩
  · -- there is nothing to take away
    have habove : above (List.replicate n ".." ++ []) = List.replicate n ".." ++ [".."] := by
      rw [above, hne, (all_up_iff hnames).2 rfl, List.append_nil]
      rfl
    have hlast : (!(List.replicate n "..").isEmpty && (List.replicate n "..").getLast? != some "..") = false := by
      cases n with
      | zero => rfl
      | succ n => simp [List.getLast?_replicate]
    rw [climb, habove, Bool.and_assoc, List.append_nil, hlast, Bool.and_false]
    refine ⟨rfl, ⟨n + 1, [], by rw [List.replicate_succ', List.append_nil], List.not_mem_nil⟩, ?_⟩
    rw [List.append_nil] at hroot
    simp [hroot]
  · rw [List.concat_eq_append] at *
    have hup : ".." ∉ front ∧ last ≠ ".." := by
      rw [List.mem_append, List.mem_singleton, not_or] at hnames
      exact ⟨hnames.1, fun heq => hnames.2 heq.symm⟩
    have hall : (List.replicate n ".." ++ (front ++ [last])).all (· == "..") = false := by
      rw [← Bool.not_eq_true, all_up_iff hnames]
      simp
    have habove : above (List.replicate n ".." ++ (front ++ [last])) = List.replicate n ".." ++ front := by
      rw [above, hne, hall, ← List.append_assoc, List.dropLast_concat]
      rfl
    rw [climb, habove, ← List.append_assoc, List.dropLast_concat, List.getLast?_concat]
    refine ⟨by simp [hup.2], ⟨n, front, rfl, hup.1⟩, fun hmem => hroot ?_⟩
    rw [← List.append_assoc]
    exact List.mem_append_left _ hmem

theorem climb_name {name : String} (h : name ≠ "..") (here rest : List String) :
    climb here (name :: rest) = climb (here ++ [name]) rest := by
  rw [climb]
  simp [h]

/-- Pieces that lead on lead where their names do. -/
theorem locate_eq_climb : ∀ {pieces here place : List String}, d.locate here pieces = .ok place → IsDirect here →
    "/" ∉ here → "/" ∉ pieces → place = climb here (pieces.filter (!isIdle ·))
  | [], here, place, h, _, _, _ => by
    cases h
    rw [List.filter_nil, climb]
  | piece :: rest, here, place, h, hdirect, hroot, hpieces => by
    rw [List.mem_cons, not_or] at hpieces
    obtain ⟨-, next, hleads, h⟩ := locate_cons_eq_ok.1 h
    cases hleads with
    | idle hidle =>
      rw [List.filter_cons_of_neg (by simp [hidle])]
      exact locate_eq_climb h hdirect hroot hpieces.2
    | up hup =>
      obtain ⟨hclimb, hdirect', hroot'⟩ := climb_up hdirect hroot (rest.filter (!isIdle ·))
      rw [hup, List.filter_cons_of_pos (by decide), hclimb]
      exact locate_eq_climb h hdirect' hroot' hpieces.2
    | name hidle hup _ =>
      have hroot' : "/" ∉ here ++ [piece] := by
        rw [List.mem_append, List.mem_singleton, not_or]
        exact ⟨hroot, hpieces.1⟩
      rw [List.filter_cons_of_pos (by simp [hidle]), climb_name hup]
      exact locate_eq_climb h (isDirect_snoc hdirect hup) hroot' hpieces.2

/-- The place that a relative path leads to, as the path alone tells it. -/
theorem place_eq_climb {path : String} {place : List String} (h : d.place path (pieces path) = .ok place)
    (hrelative : isAbsolute path = false) : place = climb [] (names path) := by
  obtain ⟨-, h⟩ := place_eq_ok.1 h
  rw [hrelative] at h
  exact locate_eq_climb h ⟨0, [], rfl, List.not_mem_nil⟩ List.not_mem_nil (root_not_mem_pieces path)

/-- A path that leads anywhere leads out of the directory, or to the place below it that `below?` gives. -/
theorem below?_eq {path : String} {place : List String} (h : d.place path (pieces path) = .ok place)
    (hrelative : isAbsolute path = false) :
    below? path = if place.head? = some ".." then none else some (String.intercalate "/" place) := by
  rw [below?, ← place_eq_climb h hrelative, hrelative]
  simp

/-! ## What is added to a directory -/

/-- A directory with the files of another, and its folders and perhaps more. -/
structure Extends (d d' : Directory) : Prop where
  files : d'.files = d.files
  folders : ∃ more, d'.folders = d.folders ++ more

namespace Extends

theorem refl (d : Directory) : Extends d d := ⟨rfl, [], (List.append_nil _).symm⟩

theorem trans {d'' : Directory} (h : Extends d d') (h' : Extends d' d'') : Extends d d'' := by
  obtain ⟨more, hmore⟩ := h.folders
  obtain ⟨later, hlater⟩ := h'.folders
  exact ⟨h'.files.trans h.files, more ++ later, by rw [hlater, hmore, List.append_assoc]⟩

theorem entry (h : Extends d d') {place : List String} {e : Entry} (he : d.entry? place = some e) :
    d'.entry? place = some e := by
  obtain ⟨more, hmore⟩ := h.folders
  unfold Directory.entry? at he ⊢
  rw [h.files, hmore]
  split at he
  · exact he
  · split at he
    · rename_i hthere
      rw [if_pos, ← he]
      simp only [Bool.or_eq_true, List.any_append] at hthere ⊢
      rcases hthere with hthere | hthere | hthere
      · exact .inl hthere
      · exact .inr (.inl hthere)
      · exact .inr (.inr (.inl hthere))
    · cases he

/-- A way through a directory stays. -/
theorem locate (h : Extends d d') : ∀ {pieces here place : List String}, d.locate here pieces = .ok place →
    d'.locate here pieces = .ok place
  | [], _, _, hplace => hplace
  | piece :: rest, here, place, hplace => by
    obtain ⟨hentry, next, hleads, hrest⟩ := locate_cons_eq_ok.1 hplace
    exact locate_cons_eq_ok.2 ⟨h.entry hentry, next, hleads, h.locate hrest⟩

theorem place (h : Extends d d') {path : String} {pieces place : List String}
    (hplace : d.place path pieces = .ok place) : d'.place path pieces = .ok place := by
  obtain ⟨hpath, hlocate⟩ := place_eq_ok.1 hplace
  exact place_eq_ok.2 ⟨hpath, h.locate hlocate⟩

/-- What is found is found. -/
theorem find (h : Extends d d') {path : String} {e : Entry} (he : d.find path = .ok e) : d'.find path = .ok e := by
  obtain ⟨place, hplace, hentry⟩ := find_eq_ok.1 he
  exact find_eq_ok.2 ⟨place, h.place hplace, h.entry hentry⟩

end Extends

/-! ## Making directories -/

theorem locate_append {pieces more here : List String} : ∀ {place : List String},
    d.locate here (pieces ++ more) = .ok place ↔
      ∃ mid, d.locate here pieces = .ok mid ∧ d.locate mid more = .ok place := by
  induction pieces generalizing here with
  | nil =>
    intro place
    refine ⟨fun h => ⟨here, rfl, h⟩, ?_⟩
    rintro ⟨mid, hmid, h⟩
    cases hmid
    exact h
  | cons piece rest ih =>
    intro place
    rw [List.cons_append, locate_cons_eq_ok]
    constructor
    · rintro ⟨hentry, next, hleads, h⟩
      obtain ⟨mid, hmid, h⟩ := ih.1 h
      exact ⟨mid, locate_cons_eq_ok.2 ⟨hentry, next, hleads, hmid⟩, h⟩
    · rintro ⟨mid, hmid, h⟩
      obtain ⟨hentry, next, hleads, hmid⟩ := locate_cons_eq_ok.1 hmid
      exact ⟨hentry, next, hleads, ih.2 ⟨mid, hmid, h⟩⟩

/-- Empty pieces lead nowhere else. -/
theorem locate_empty : ∀ {more here place : List String}, (∀ p ∈ more, p = "") → d.locate here more = .ok place →
    place = here
  | [], _, _, _, h => by cases h; rfl
  | p :: more, here, place, hempty, h => by
    obtain ⟨rfl, hmore⟩ := List.forall_mem_cons.1 hempty
    obtain ⟨-, next, hleads, h⟩ := locate_cons_eq_ok.1 h
    have hnext : next = here := by
      cases hleads with
      | idle _ => rfl
      | up hup => exact absurd hup (by decide)
      | name hidle _ _ => cases hidle
    rw [locate_empty hmore h, hnext]

theorem locate_empty_of_directory {here : List String} (h : d.entry? here = some .directory) :
    ∀ {more : List String}, (∀ p ∈ more, p = "") → d.locate here more = .ok here
  | [], _ => rfl
  | p :: more, hempty => by
    obtain ⟨rfl, hmore⟩ := List.forall_mem_cons.1 hempty
    exact locate_cons_eq_ok.2 ⟨h, here, .idle rfl, locate_empty_of_directory h hmore⟩

theorem hasFolder_iff_find {path : String} : d.hasFolder path = true ↔ d.find path = .ok .directory := by
  unfold hasFolder
  split
  · rename_i hfind
    simp [hfind]
  · rename_i hfind
    simpa using hfind

/-- A directory stands at a path if it stands where the path leads, with or without the slashes at its end. -/
theorem hasFolder_iff {path : String} : d.hasFolder path = true ↔
    ∃ place, d.place path (trimSlashes (pieces path)) = .ok place ∧ d.entry? place = some .directory := by
  obtain ⟨more, hpieces, hempty⟩ := trimSlashes_append (pieces path)
  generalize trimSlashes (pieces path) = front at hpieces ⊢
  rw [hasFolder_iff_find, find_eq_ok, hpieces]
  constructor
  · rintro ⟨place, hplace, hentry⟩
    obtain ⟨hpath, hlocate⟩ := place_eq_ok.1 hplace
    obtain ⟨mid, hmid, hlocate⟩ := locate_append.1 hlocate
    obtain rfl := locate_empty hempty hlocate
    exact ⟨place, place_eq_ok.2 ⟨hpath, hmid⟩, hentry⟩
  · rintro ⟨place, hplace, hentry⟩
    obtain ⟨hpath, hlocate⟩ := place_eq_ok.1 hplace
    exact ⟨place, place_eq_ok.2 ⟨hpath, locate_append.2 ⟨place, hlocate, locate_empty_of_directory hentry hempty⟩⟩,
      hentry⟩

/-- What is made is there. -/
theorem ensureOne_ok {path : String} (h : d.ensureOne path = .ok d') : Extends d d' ∧ d'.hasFolder path = true := by
  unfold ensureOne at h
  rcases hmake : d.makeOne path with e | made
  · rw [hmake] at h
    dsimp only at h
    split at h
    · rename_i hfolder
      cases h
      exact ⟨.refl d, hfolder⟩
    · cases h
  · rw [hmake] at h
    cases h
    unfold makeOne at hmake
    rcases hplace : d.place path (trimSlashes (pieces path)) with e | place
    · rw [hplace] at hmake
      cases hmake
    · rw [hplace] at hmake
      cases hentry : d.entry? place with
      | some _ =>
        simp only [hentry, bind, Except.bind] at hmake
        cases hmake
      | none =>
        simp only [hentry, bind, Except.bind] at hmake
        cases hmake
        have hextends : Extends d { d with folders := d.folders ++ [place] } := ⟨rfl, [place], rfl⟩
        refine ⟨hextends, hasFolder_iff.2 ⟨place, hextends.place hplace, ?_⟩⟩
        unfold Directory.entry? at hentry ⊢
        split at hentry
        · cases hentry
        · rename_i hfile
          rw [hfile]
          simp

theorem makeWithin_ok : ∀ {paths : List String} {d' : Directory}, d.makeWithin paths = .ok d' →
    Extends d d' ∧ ∀ path ∈ paths.head?, d'.hasFolder path = true
  | [], d', h => by
    cases h
    exact ⟨.refl d, fun _ hpath => by cases hpath⟩
  | path :: above, d', h => by
    rw [makeWithin] at h
    split at h
    · rcases habove : d.makeWithin above with e | mid
      · rw [habove] at h
        cases h
      · rw [habove] at h
        obtain ⟨hextends, hfolder⟩ := ensureOne_ok h
        refine ⟨(makeWithin_ok habove).1.trans hextends, ?_⟩
        rintro _ ⟨⟩
        exact hfolder
    · obtain ⟨hextends, hfolder⟩ := ensureOne_ok h
      refine ⟨hextends, ?_⟩
      rintro _ ⟨⟩
      exact hfolder

theorem head?_ancestors {path : String} (h : path.isEmpty = false) :
    ((ancestors path).filter (!·.isEmpty)).head? = some path := by
  rw [ancestors, ancestorsWithin, List.filter_cons_of_pos (by simp [h])]
  rfl

/-- A directory that has been made is there, and so is all that was there before. -/
theorem make_ok {path : String} (h : d.make path = .ok d') :
    Extends d d' ∧ (path.isEmpty = false → d'.hasFolder path = true) := by
  obtain ⟨hextends, hfolder⟩ := makeWithin_ok h
  exact ⟨hextends, fun hne => hfolder path (head?_ancestors hne)⟩

/-- To make a directory again changes nothing. -/
theorem make_again {path : String} (h : d.make path = .ok d') : d'.make path = .ok d' := by
  cases hne : path.isEmpty with
  | true =>
    have hnone : (ancestors path).filter (!·.isEmpty) = [] := by
      rw [String.isEmpty_iff.1 hne]
      rfl
    unfold make
    rw [hnone]
    rfl
  | false =>
    have hfolder := (make_ok h).2 hne
    obtain ⟨above, habove⟩ := List.head?_eq_some_iff.1 (head?_ancestors hne)
    obtain ⟨place, hplace, hentry⟩ := hasFolder_iff.1 hfolder
    have hmake : d'.makeOne path = .error .alreadyExists := by
      unfold makeOne
      rw [hplace]
      simp only [hentry, bind, Except.bind]
    have hensure : d'.ensureOne path = .ok d' := by
      unfold ensureOne
      rw [hmake]
      simp only [hfolder, if_true]
    unfold make
    rw [habove, makeWithin, hensure]

/-! ## Files at their paths -/

/-- A relative path that can be that of a file: it is made of names, and nothing idle follows the last of them. -/
structure NamesFile (path : String) : Prop where
  isPath : IsPath path
  relative : isAbsolute path = false
  names : ∀ name ∈ pieces path, isIdle name = false → name ≠ ".." ∧ name.utf8ByteSize ≤ nameLimit
  last : ∀ name ∈ (pieces path).getLast?, isIdle name = false

/-- The way along names through directories. -/
theorem locate_names {target : List String}
    (hway : ∀ here, here <+: target → here ≠ target → d.entry? here = some .directory) : ∀ {ps here : List String},
    here ++ ps.filter (!isIdle ·) = target → (∀ name ∈ ps, isIdle name = false → name ≠ ".." ∧
      name.utf8ByteSize ≤ nameLimit) → (∀ name ∈ ps.getLast?, isIdle name = false) → d.locate here ps = .ok target
  | [], here, htarget, _, _ => by
    rw [List.filter_nil, List.append_nil] at htarget
    rw [htarget, locate]
  | p :: rest, here, htarget, hnames, hlast => by
    obtain ⟨hp, hrest⟩ := List.forall_mem_cons.1 hnames
    have hlastRest : ∀ name ∈ rest.getLast?, isIdle name = false := by
      cases rest with
      | nil => exact fun _ h => by cases h
      | cons q more => rwa [List.getLast?_cons_cons] at hlast
    have hne : here ≠ target := by
      obtain ⟨last, hmem⟩ : ∃ last, (p :: rest).getLast? = some last :=
        ⟨_, List.getLast?_eq_some_getLast (List.cons_ne_nil p rest)⟩
      have hkept : last ∈ (p :: rest).filter (!isIdle ·) :=
        List.mem_filter.2 ⟨List.mem_of_getLast? hmem, by rw [hlast last hmem]; rfl⟩
      intro heq
      rw [heq] at htarget
      rw [List.append_right_eq_self.1 htarget] at hkept
      cases hkept
    have hentry := hway here ⟨_, htarget⟩ hne
    cases hidle : isIdle p with
    | true =>
      rw [List.filter_cons_of_neg (by simp [hidle])] at htarget
      exact locate_cons_eq_ok.2 ⟨hentry, here, .idle hidle, locate_names hway htarget hrest hlastRest⟩
    | false =>
      rw [List.filter_cons_of_pos (by simp [hidle]), ← List.singleton_append, ← List.append_assoc] at htarget
      exact locate_cons_eq_ok.2 ⟨hentry, here ++ [p], .name hidle (hp hidle).1 (hp hidle).2,
        locate_names hway htarget hrest hlastRest⟩

/-- A file is read at its path, unless another file stands where a directory is on the way. -/
theorem read_ofFiles {files : List (String × ByteArray)} {path : String} {bytes : ByteArray} (hpath : NamesFile path)
    (hfile : (ofFiles files).files.lookup (Path.names path) = some bytes)
    (hway : ∀ here, here <+: Path.names path → here ≠ Path.names path → (ofFiles files).files.lookup here = none) :
    (ofFiles files).read path = .ok bytes := by
  have hfolder : ∀ here, here <+: Path.names path → here ≠ Path.names path →
      entry? (ofFiles files) here = some .directory := by
    intro here hprefix hne
    obtain ⟨before, after, hfiles, -⟩ := List.lookup_eq_some_iff.1 hfile
    have hthere : ((ofFiles files).files.map (·.1) ++ (ofFiles files).folders).any here.isPrefixOf = true :=
      List.any_eq_true.2 ⟨Path.names path, by rw [hfiles]; simp, List.isPrefixOf_iff_prefix.2 hprefix⟩
    unfold entry?
    rw [hway here hprefix hne]
    dsimp only
    rw [hthere, Bool.or_true]
    rfl
  have hlocate : (ofFiles files).locate [] (pieces path) = .ok (Path.names path) :=
    locate_names hfolder (List.nil_append _) hpath.names hpath.last
  have hplace : (ofFiles files).place path (pieces path) = .ok (Path.names path) :=
    place_eq_ok.2 ⟨hpath.isPath, by rw [hpath.relative]; exact hlocate⟩
  have hfind : (ofFiles files).find path = .ok (.file bytes) :=
    find_eq_ok.2 ⟨_, hplace, by unfold entry?; rw [hfile]⟩
  unfold read
  rw [hfind]
  rfl

end Directory

end WorkItemQuery
