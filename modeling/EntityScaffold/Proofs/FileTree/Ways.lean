import EntityScaffold.Proofs.FileTree

/-
The ways that paths take through a tree: the locations they lead through, and the one they lead to. A path shows a file
just when its way leads through folders only and the file stands at its end.
-/

namespace EntityScaffold

/-- A path that the system accepts as a name: no null character, and no part and no whole that is too long. -/
structure Path.Fits (p : Path) : Prop where
  null : '\x00' ∉ p.text
  whole : ¬ FileTree.longestPath ≤ (Utf8.encode p.text).length
  parts : ∀ part ∈ p.parts, ¬ FileTree.longestName < (Utf8.encode part).length

/-- A path whose last part is a name of its own. -/
structure Path.HasName (p : Path) : Prop where
  ne_nil : p.parts ≠ []
  ne_up : p.name ≠ "..".toList

theorem Path.parts_eq {p : Path} (h : p.parts ≠ []) : p.parts = p.parent.parts ++ [p.name] := by
  have last : p.name = p.parts.getLast h := by simp [Path.name, List.getLast?_eq_some_getLast h]
  rw [last]
  exact (List.dropLast_concat_getLast h).symm

theorem Path.text_parent_mem {p : Path} {c : Char} (hc : c ∈ p.parent.text) : c ∈ p.text ∨ c = '.' := by
  by_cases h : p.parent.parts = []
  · obtain ⟨root, parts⟩ := p
    cases root with
    | here =>
      have dot : Path.text ⟨.here, []⟩ = ['.'] := rfl
      rw [show Path.parent ⟨.here, parts⟩ = ⟨.here, []⟩ from congrArg (Path.mk .here) h, dot] at hc
      exact Or.inr (List.mem_singleton.1 hc)
    | slash =>
      left
      rw [show Path.parent ⟨.slash, parts⟩ = ⟨.slash, []⟩ from congrArg (Path.mk .slash) h] at hc
      cases parts <;> exact List.mem_append_left _ (by simpa [Path.text, Text.joinWith] using hc)
    | doubleSlash =>
      left
      rw [show Path.parent ⟨.doubleSlash, parts⟩ = ⟨.doubleSlash, []⟩ from congrArg (Path.mk .doubleSlash) h] at hc
      cases parts <;> exact List.mem_append_left _ (by simpa [Path.text, Text.joinWith] using hc)
  · exact Or.inl ((Path.text_parent h).subset hc)

theorem Path.length_text_parent (p : Path) :
    (Utf8.encode p.parent.text).length ≤ max 2 (Utf8.encode p.text).length := by
  by_cases h : p.parent.parts = []
  · obtain ⟨root, parts⟩ := p
    rw [show Path.parent ⟨root, parts⟩ = ⟨root, []⟩ from congrArg (Path.mk root) h]
    refine Nat.le_trans ?_ (Nat.le_max_left _ _)
    cases root <;> decide
  · obtain ⟨rest, hrest⟩ := Path.text_parent h
    rw [← hrest, Utf8.encode_append, List.length_append]
    omega

theorem Path.Fits.parent {p : Path} (h : p.Fits) : p.parent.Fits := by
  refine ⟨fun hc => ?_, ?_, fun part hm => h.parts part (List.mem_of_mem_dropLast hm)⟩
  · rcases Path.text_parent_mem hc with hc | hc
    · exact h.null hc
    · exact absurd hc (by decide)
  · have := Path.length_text_parent p
    have := h.whole
    simp only [FileTree.longestPath] at this ⊢
    omega

theorem Path.join_assoc {p q r : Path} (below : r.root = .here) : p / (q / r) = p / q / r := by
  obtain ⟨root, parts⟩ := r
  obtain rfl : root = .here := below
  obtain ⟨root, parts'⟩ := q
  cases root with
  | here => exact congrArg (Path.mk p.root) (List.append_assoc p.parts parts' parts).symm
  | slash => rfl
  | doubleSlash => rfl

namespace FileTree

variable {t : FileTree} {here : Location} {p q : Path} {s : Spot} {content : Octets}

/-- Where parts lead from a location: two dots lead back, and every other part leads on. -/
def climb (here : Location) : List Text → Location
  | [] => here
  | part :: ps => if part = "..".toList then climb here.dropLast ps else climb (here ++ [part]) ps

/-- The locations that parts lead through, up to the last one. -/
def passed (here : Location) : List Text → List Location
  | [] => []
  | part :: ps =>
    if part = "..".toList then passed here.dropLast ps else (here ++ [part]) :: passed (here ++ [part]) ps

def start (t : FileTree) (p : Path) : Location := if p.isAbsolute then [] else t.work

/-- The location that a path leads to, if nothing stops it. -/
def locationOf (t : FileTree) (p : Path) : Location := climb (t.start p) p.parts

/-- The locations that a path leads through, up to its own. -/
def passedBy (t : FileTree) (p : Path) : List Location := passed (t.start p) p.parts

@[simp] theorem climb_nil (here : Location) : climb here [] = here := rfl

@[simp] theorem passed_nil (here : Location) : passed here [] = [] := rfl

theorem climb_up (here : Location) (ps : List Text) : climb here ("..".toList :: ps) = climb here.dropLast ps := by
  rw [climb, if_pos rfl]

theorem climb_on {part : Text} (hup : part ≠ "..".toList) (here : Location) (ps : List Text) :
    climb here (part :: ps) = climb (here ++ [part]) ps := by
  rw [climb, if_neg hup]

theorem passed_up (here : Location) (ps : List Text) : passed here ("..".toList :: ps) = passed here.dropLast ps := by
  rw [passed, if_pos rfl]

theorem passed_on {part : Text} (hup : part ≠ "..".toList) (here : Location) (ps : List Text) :
    passed here (part :: ps) = (here ++ [part]) :: passed (here ++ [part]) ps := by
  rw [passed, if_neg hup]

theorem climb_append (here : Location) (ps qs : List Text) : climb here (ps ++ qs) = climb (climb here ps) qs := by
  induction ps generalizing here with
  | nil => rfl
  | cons part ps ih =>
    by_cases hup : part = "..".toList
    · rw [hup, List.cons_append, climb_up, climb_up, ih]
    · rw [List.cons_append, climb_on hup, climb_on hup, ih]

theorem passed_append (here : Location) (ps qs : List Text) :
    passed here (ps ++ qs) = passed here ps ++ passed (climb here ps) qs := by
  induction ps generalizing here with
  | nil => rfl
  | cons part ps ih =>
    by_cases hup : part = "..".toList
    · rw [hup, List.cons_append, passed_up, passed_up, climb_up, ih]
    · rw [List.cons_append, passed_on hup, passed_on hup, climb_on hup, ih, List.cons_append]

theorem passedBy_parent_subset (t : FileTree) (p : Path) : t.passedBy p.parent ⊆ t.passedBy p := by
  by_cases h : p.parts = []
  · rw [passedBy, passedBy, show p.parent.parts = p.parts by simp [Path.parent, h]]
    exact List.Subset.refl _
  · rw [passedBy, passedBy, Path.parts_eq h, passed_append]
    exact List.subset_append_left _ _

/-- The parts of a way, the last one first, with one more: two dots take back the part before, unless that is two dots
itself. -/
def stepOn (back : List Text) (part : Text) : List Text :=
  match back with
  | [] => [part]
  | last :: more => if part = "..".toList ∧ last ≠ "..".toList then more else part :: last :: more

/-- The parts of a way without those that two dots take back. -/
def collapse (ps : List Text) : List Text := (ps.foldl stepOn []).reverse

theorem climb_stepOn (here : Location) (back : List Text) (part : Text) :
    climb here (stepOn back part).reverse = climb here (back.reverse ++ [part]) := by
  cases back with
  | nil => rfl
  | cons last more =>
    rw [stepOn]
    split
    · next h =>
      obtain ⟨rfl, hlast⟩ := h
      rw [List.reverse_cons, climb_append, climb_append, climb_on hlast, climb_nil, climb_up, climb_nil,
        List.dropLast_concat]
    · rw [List.reverse_cons]

/-- A way leads where it leads without the parts that are taken back. -/
theorem climb_collapse (here : Location) (ps : List Text) : climb here (collapse ps) = climb here ps := by
  have after : ∀ back, climb here (ps.foldl stepOn back).reverse = climb here (back.reverse ++ ps) := by
    induction ps with
    | nil =>
      intro back
      rw [List.append_nil]
      rfl
    | cons part ps ih =>
      intro back
      rw [List.foldl_cons, ih, climb_append, climb_stepOn, ← climb_append, List.append_assoc]
      rfl
  exact after []

theorem locationOf_join (below : q.root = .here) : t.locationOf (p / q) = climb (t.locationOf p) q.parts := by
  obtain ⟨root, parts⟩ := q
  obtain rfl : root = .here := below
  exact climb_append (t.start p) p.parts parts

theorem locationOf_eq (named : p.HasName) : t.locationOf p = t.locationOf p.parent ++ [p.name] := by
  rw [locationOf, Path.parts_eq named.ne_nil, climb_append, climb_on named.ne_up]
  rfl

theorem locationOf_ne_nil (named : p.HasName) : t.locationOf p ≠ [] := by
  rw [locationOf_eq named]
  simp

theorem passedBy_eq (named : p.HasName) : t.passedBy p = t.passedBy p.parent ++ [t.locationOf p] := by
  rw [locationOf_eq named, passedBy, Path.parts_eq named.ne_nil, passed_append, passed_on named.ne_up]
  rfl

theorem ne_nil_of_mem_passed {l : Location} {ps : List Text} (h : l ∈ passed here ps) : l ≠ [] := by
  induction ps generalizing here with
  | nil => exact absurd h List.not_mem_nil
  | cons part ps ih =>
    by_cases hup : part = "..".toList
    · rw [hup, passed_up] at h
      exact ih h
    · rw [passed_on hup] at h
      rcases List.mem_cons.1 h with rfl | h
      · simp
      · exact ih h

theorem follow_folder_iff {ps : List Text} :
    (∃ s, t.follow here ps = .ok s ∧ s.node = some .folder) ↔
      (∀ part ∈ ps, ¬ longestName < (Utf8.encode part).length) ∧
        ∀ l ∈ passed here ps, t.get? l = some .folder := by
  induction ps generalizing here with
  | nil => simp [follow]
  | cons part ps ih =>
    by_cases hup : part = "..".toList
    · have short : ¬ longestName < (Utf8.encode part).length := by rw [hup]; decide
      rw [hup, follow_up, passed_up, ih, List.forall_mem_cons, ← hup]
      simp [short]
    · rw [passed_on hup, List.forall_mem_cons, List.forall_mem_cons]
      constructor
      · rintro ⟨s, hs, hnode⟩
        rcases follow_cases hs with ⟨hup', -⟩ | ⟨-, short, ⟨rfl, rfl⟩ | ⟨-, hfolder, hs⟩⟩
        · exact absurd hup' hup
        · exact ⟨by simpa using short, hnode, by simp⟩
        · obtain ⟨shorts, folders⟩ := ih.1 ⟨s, hs, hnode⟩
          exact ⟨⟨short, shorts⟩, hfolder, folders⟩
      · rintro ⟨⟨short, shorts⟩, hfolder, folders⟩
        cases ps with
        | nil => exact ⟨_, follow_last hup short, hfolder⟩
        | cons q qs =>
          rw [follow_into hup short (List.cons_ne_nil q qs) hfolder]
          exact ih.2 ⟨shorts, folders⟩

theorem follow_append {ps qs : List Text} (hps : ∀ part ∈ ps, ¬ longestName < (Utf8.encode part).length)
    (folders : ∀ l ∈ passed here ps, t.get? l = some .folder) (hqs : qs ≠ []) :
    t.follow here (ps ++ qs) = t.follow (climb here ps) qs := by
  induction ps generalizing here with
  | nil => rfl
  | cons part ps ih =>
    have ne : ps ++ qs ≠ [] := by simp [hqs]
    by_cases hup : part = "..".toList
    · subst hup
      rw [passed_up] at folders
      rw [List.cons_append, follow_up, climb_up]
      exact ih (fun q hq => hps q (List.mem_cons_of_mem _ hq)) folders
    · rw [passed_on hup, List.forall_mem_cons] at folders
      rw [List.cons_append, follow_into hup (hps part List.mem_cons_self) ne folders.1, climb_on hup]
      exact ih (fun q hq => hps q (List.mem_cons_of_mem _ hq)) folders.2

theorem follow_back {ps : List Text} (h : t.follow here (ps ++ ["..".toList]) = .ok s) :
    s.node = some .folder ∧ s.isNamed = false := by
  induction ps generalizing here with
  | nil =>
    rw [List.nil_append, follow_up] at h
    obtain rfl := Except.ok.inj h
    exact ⟨rfl, rfl⟩
  | cons part ps ih =>
    rcases follow_cases h with ⟨-, h⟩ | ⟨-, -, ⟨hnil, -⟩ | ⟨-, -, h⟩⟩
    · exact ih h
    · simp at hnil
    · exact ih h

theorem location_of_follow {ps : List Text} (h : t.follow here ps = .ok s) : s.location = climb here ps := by
  induction ps generalizing here with
  | nil =>
    obtain rfl := Except.ok.inj h
    rfl
  | cons part ps ih =>
    rcases follow_cases h with ⟨rfl, h⟩ | ⟨hup, -, ⟨rfl, rfl⟩ | ⟨-, -, h⟩⟩
    · rw [climb_up]
      exact ih h
    · rw [climb_on hup]
      rfl
    · rw [climb_on hup]
      exact ih h

/-- What is no folder at the end of a way stands at the last location that the way leads through. -/
theorem node_of_follow {ps : List Text} (h : t.follow here ps = .ok s) (hs : s.node ≠ some .folder) :
    s.location ∈ passed here ps ∧ s.node = t.get? s.location := by
  induction ps generalizing here with
  | nil =>
    obtain rfl := Except.ok.inj h
    exact absurd rfl hs
  | cons part ps ih =>
    rcases follow_cases h with ⟨rfl, h⟩ | ⟨hup, -, ⟨rfl, rfl⟩ | ⟨-, -, h⟩⟩
    · rw [passed_up]
      exact ih h
    · rw [passed_on hup]
      exact ⟨List.mem_cons_self, rfl⟩
    · rw [passed_on hup]
      exact ⟨List.mem_cons_of_mem _ (ih h).1, (ih h).2⟩

theorem follow_error_cases {ps : List Text} {reason : Reason} (h : t.follow here ps = .error reason) :
    (reason = .missing ∧ ps ≠ []) ∨
      (reason = .notFolder ∧ ∃ l ∈ passed here ps, ∃ content, t.get? l = some (.file content)) ∨
      (reason = .nameTooLong ∧ ∃ part ∈ ps, longestName < (Utf8.encode part).length) := by
  induction ps generalizing here with
  | nil => exact absurd h (by simp [follow])
  | cons part ps ih =>
    have further {next : Location} (hnext : t.follow next ps = .error reason)
        (sub : passed next ps ⊆ passed here (part :: ps)) :
        (reason = .missing ∧ part :: ps ≠ []) ∨
          (reason = .notFolder ∧ ∃ l ∈ passed here (part :: ps), ∃ content, t.get? l = some (.file content)) ∨
          (reason = .nameTooLong ∧ ∃ q ∈ part :: ps, longestName < (Utf8.encode q).length) := by
      rcases ih hnext with ⟨missing, -⟩ | ⟨notFolder, l, hl, hfile⟩ | ⟨long, q, hq, hlong⟩
      · exact Or.inl ⟨missing, List.cons_ne_nil part ps⟩
      · exact Or.inr (Or.inl ⟨notFolder, l, sub hl, hfile⟩)
      · exact Or.inr (Or.inr ⟨long, q, List.mem_cons_of_mem _ hq, hlong⟩)
    by_cases hup : part = "..".toList
    · subst hup
      rw [follow_up] at h
      refine further h ?_
      rw [passed_up]
      exact List.Subset.refl _
    · rw [follow, if_neg hup] at h
      split at h
      · next long => exact Or.inr (Or.inr ⟨(Except.error.inj h).symm, part, List.mem_cons_self, long⟩)
      · dsimp only at h
        split at h
        · exact absurd h (by simp)
        · refine further h ?_
          rw [passed_on hup]
          exact List.subset_cons_self _ _
        · next c _ _ hfile =>
          refine Or.inr (Or.inl ⟨(Except.error.inj h).symm, here ++ [part], ?_, c, hfile⟩)
          rw [passed_on hup]
          exact List.mem_cons_self
        · exact Or.inl ⟨(Except.error.inj h).symm, List.cons_ne_nil _ _⟩

theorem spot_of_fits (h : p.Fits) : t.spot p = (t.follow (t.start p) p.parts).mapError (.system · p.text none) := by
  rw [spot, if_neg (by simpa using h.null), if_neg h.whole, start]
  cases t.follow (if p.isAbsolute then [] else t.work) p.parts <;> rfl

theorem follow_of_spot (h : t.spot p = .ok s) :
    '\x00' ∉ p.text ∧ ¬ longestPath ≤ (Utf8.encode p.text).length ∧ t.follow (t.start p) p.parts = .ok s := by
  unfold spot at h
  split at h
  · exact absurd h (by simp)
  · next hnull =>
    split at h
    · exact absurd h (by simp)
    · next hlong =>
      refine ⟨by simpa using hnull, hlong, ?_⟩
      split at h
      · next hs => rw [start, hs, Except.ok.inj h]
      · exact absurd h (by simp)

theorem spot_error_cases {r : Refusal} (h : t.spot p = .error r) :
    (r = .nullInPath ∧ '\x00' ∈ p.text) ∨
      ∃ reason, r = .system reason p.text none ∧
        ((reason = .missing ∧ p.parts ≠ []) ∨
          (reason = .notFolder ∧ ∃ l ∈ t.passedBy p, ∃ content, t.get? l = some (.file content)) ∨
          (reason = .nameTooLong ∧ ¬ p.Fits)) := by
  unfold spot at h
  split at h
  · next hnull => exact Or.inl ⟨(Except.error.inj h).symm, by simpa using hnull⟩
  · split at h
    · next long =>
      exact Or.inr ⟨_, (Except.error.inj h).symm, Or.inr (Or.inr ⟨rfl, fun fits => fits.whole long⟩)⟩
    · split at h
      · exact absurd h (by simp)
      · next reason hreason =>
        refine Or.inr ⟨reason, (Except.error.inj h).symm, ?_⟩
        rcases follow_error_cases hreason with missing | file | ⟨rfl, part, hpart, long⟩
        · exact Or.inl missing
        · exact Or.inr (Or.inl file)
        · exact Or.inr (Or.inr ⟨rfl, fun fits => fits.parts part hpart long⟩)

theorem spot_folder_iff :
    (∃ s, t.spot p = .ok s ∧ s.node = some .folder) ↔
      p.Fits ∧ ∀ l ∈ t.passedBy p, t.get? l = some .folder := by
  constructor
  · rintro ⟨s, hs, hnode⟩
    obtain ⟨hnull, hlong, hs⟩ := follow_of_spot hs
    obtain ⟨short, folders⟩ := follow_folder_iff.1 ⟨s, hs, hnode⟩
    exact ⟨⟨hnull, hlong, short⟩, folders⟩
  · rintro ⟨fits, folders⟩
    obtain ⟨s, hs, hnode⟩ := follow_folder_iff.2 ⟨fits.parts, folders⟩
    exact ⟨s, by rw [spot_of_fits fits, hs]; rfl, hnode⟩

theorem named_of_spot (h : t.spot p = .ok s) (hs : s.isNamed = true ∨ s.node ≠ some .folder) : p.HasName := by
  obtain ⟨-, -, hs'⟩ := follow_of_spot h
  have ne : p.parts ≠ [] := by
    intro hnil
    rw [hnil] at hs'
    obtain rfl := Except.ok.inj hs'
    simp at hs
  refine ⟨ne, fun hup => ?_⟩
  rw [Path.parts_eq ne, hup] at hs'
  obtain ⟨hfolder, hnamed⟩ := follow_back hs'
  simp [hfolder, hnamed] at hs

theorem spot_in_folder (fits : p.Fits) (named : p.HasName)
    (folders : ∀ l ∈ t.passedBy p.parent, t.get? l = some .folder) :
    t.spot p = .ok ⟨t.locationOf p, t.get? (t.locationOf p), true⟩ := by
  have whole := Path.parts_eq named.ne_nil
  have short : ∀ part ∈ p.parent.parts ++ [p.name], ¬ longestName < (Utf8.encode part).length := whole ▸ fits.parts
  have on : t.follow (t.start p) (p.parent.parts ++ [p.name]) = t.follow (climb (t.start p) p.parent.parts) [p.name] :=
    follow_append (fun q hq => short q (List.mem_append_left _ hq)) folders (List.cons_ne_nil _ _)
  rw [spot_of_fits fits, locationOf, whole, climb_append, climb_on named.ne_up, on,
    follow_last named.ne_up (short p.name (by simp))]
  rfl

theorem spot_named (named : p.HasName) (h : t.spot p = .ok s) :
    p.Fits ∧ (∀ l ∈ t.passedBy p.parent, t.get? l = some .folder) ∧
      s = ⟨t.locationOf p, t.get? (t.locationOf p), true⟩ := by
  obtain ⟨hnull, hlong, hs⟩ := follow_of_spot h
  have whole := Path.parts_eq named.ne_nil
  rw [whole] at hs
  obtain ⟨-, s', hs', hfolder⟩ := follow_concat named.ne_up hs
  obtain ⟨short, folders⟩ := follow_folder_iff.1 ⟨s', hs', hfolder⟩
  rw [follow_append short folders (List.cons_ne_nil _ _)] at hs
  have last : ¬ longestName < (Utf8.encode p.name).length := by
    rcases follow_cases hs with ⟨hup, -⟩ | ⟨-, short, -⟩
    · exact absurd hup named.ne_up
    · exact short
  have fits : p.Fits := by
    refine ⟨hnull, hlong, fun part hm => ?_⟩
    rw [whole] at hm
    rcases List.mem_append.1 hm with hm | hm
    · exact short part hm
    · rw [List.mem_singleton.1 hm]
      exact last
  refine ⟨fits, folders, ?_⟩
  rw [spot_in_folder fits named folders] at h
  exact (Except.ok.inj h).symm

theorem read_eq_ok_iff :
    t.read p = .ok content ↔ p.Fits ∧ p.HasName ∧ (∀ l ∈ t.passedBy p.parent, t.get? l = some .folder) ∧
      t.get? (t.locationOf p) = some (.file content) := by
  constructor
  · intro h
    obtain ⟨s, hs, hnode, -⟩ := spot_of_read h
    have named : p.HasName := named_of_spot hs (Or.inr (by simp [hnode]))
    obtain ⟨fits, folders, rfl⟩ := spot_named named hs
    exact ⟨fits, named, folders, hnode⟩
  · rintro ⟨fits, named, folders, hfile⟩
    rw [read, spot_in_folder fits named folders]
    simp only [bind, Except.bind, hfile]

end FileTree

end EntityScaffold
