import EntityScaffold.Proofs.SharedFile.Marker

/-
Complete registrations. One that reports nothing leaves every line of its insertions in the file, the marker among
them, and no later registration takes a line away.
-/

namespace EntityScaffold.SharedFile

open Naming (Identifier AddressPrefix)
open Text (lines occurrences occurrencesIn)

variable {i k : Insertion} {t : Target} {p : AddressPrefix} {e f : Identifier}

/-- Every line that the insertions bring for an entity stands in the text. -/
def Target.IsComplete (t : Target) (p : AddressPrefix) (e : Identifier) (content : Text) : Prop :=
  ∀ i ∈ t.insertions, AllIn (i.linesOf p e) (lines content)

/-- What a registration could not do. -/
def Outcome.warnings : Outcome → List Text
  | .registered => []
  | .spliced s => s.warnings

theorem Target.IsStable.allIn_next (h : t.IsStable p) (hi : i ∈ t.insertions) (hk : k ∈ t.insertions) {s : Spliced}
    (there : AllIn (k.linesOf p f) (lines s.content)) :
    AllIn (k.linesOf p f) (lines (s.next (entityContext e.name p.text) i).content) := by
  rcases h.next_cases hi e s with same | ⟨us, old, new, vs, before, after, entered⟩
  · rw [same]
    exact there
  · rw [after]
    rw [before] at there
    refine there.replaced fun l hl hold => ?_
    exact entered.kept ((h.renders f k hk).neat l hl).ne_nil (h.blocks f k hk l hl i hi) hold

theorem Target.IsStable.allIn_foldl (h : t.IsStable p) {is : List Insertion} (sub : is ⊆ t.insertions)
    (hk : k ∈ t.insertions) {s : Spliced} (there : AllIn (k.linesOf p f) (lines s.content)) :
    AllIn (k.linesOf p f) (lines (is.foldl (Spliced.next (entityContext e.name p.text)) s).content) := by
  refine List.foldlRecOn (motive := fun s : Spliced => AllIn (k.linesOf p f) (lines s.content)) is _ there ?_
  intro s there i hi
  exact h.allIn_next (sub hi) hk there

theorem Target.IsStable.isComplete_register (h : t.IsStable p) {content : Text} (there : t.IsComplete p f content) :
    t.IsComplete p f ((t.register (entityContext e.name p.text) content).left content) := by
  intro k hk
  unfold Target.register
  split
  · exact there k hk
  · exact h.allIn_foldl (s := { content := content }) (List.Subset.refl t.insertions) hk (there k hk)

theorem warnings_next (context : Template.Context) (s : Spliced) (i : Insertion) :
    s.warnings <+: (s.next context i).warnings := by
  unfold Spliced.next
  cases splice context s.content i with
  | alreadyThere => exact List.prefix_refl s.warnings
  | inserted content => exact List.prefix_refl s.warnings
  | anchorMissing anchor => exact List.prefix_append s.warnings _

theorem warnings_foldl (context : Template.Context) (is : List Insertion) (s : Spliced) :
    s.warnings <+: (is.foldl (Spliced.next context) s).warnings := by
  refine List.foldlRecOn (motive := fun s' : Spliced => s.warnings <+: s'.warnings) is _ (List.prefix_refl s.warnings) ?_
  intro s' started i _
  exact started.trans (warnings_next context s' i)

theorem content_of_applied (context : Template.Context) (is : List Insertion) (s : Spliced) :
    s.applied ≤ (is.foldl (Spliced.next context) s).applied ∧
      ((is.foldl (Spliced.next context) s).applied = s.applied →
        (is.foldl (Spliced.next context) s).content = s.content) := by
  refine List.foldlRecOn
    (motive := fun s' : Spliced => s.applied ≤ s'.applied ∧ (s'.applied = s.applied → s'.content = s.content))
    is _ ⟨Nat.le_refl _, fun _ => rfl⟩ ?_
  rintro s' ⟨least, same⟩ i -
  unfold Spliced.next
  cases splice context s'.content i with
  | alreadyThere => exact ⟨least, same⟩
  | anchorMissing anchor => exact ⟨least, same⟩
  | inserted content => exact ⟨Nat.le_succ_of_le least, fun he => absurd he (Nat.ne_of_gt (Nat.lt_succ_of_le least))⟩

theorem Target.IsStable.allIn_of_next (h : t.IsStable p) (hi : i ∈ t.insertions) {s : Spliced}
    (silent : (s.next (entityContext e.name p.text) i).warnings = []) :
    AllIn (i.linesOf p e) (lines (s.next (entityContext e.name p.text) i).content) := by
  have by_lines := splice_by_lines (h.renders e i hi) s.content
  unfold Spliced.next at silent ⊢
  cases made : splice (entityContext e.name p.text) s.content i with
  | alreadyThere =>
    rw [made] at by_lines
    cases by_lines with
    | @thereInSection s' found there =>
      refine there.mono fun l hl => ?_
      rw [Insertion.tagged?_lines found]
      exact List.mem_append_right _ (List.mem_append_left _ hl)
    | thereInText missing there => exact there
  | inserted content =>
    obtain ⟨us, old, new, vs, -, after, entered⟩ := (made ▸ by_lines).entered
    change AllIn _ (lines content)
    rw [after]
    exact entered.allIn.mono fun l hl => List.mem_append_right us (List.mem_append_left vs hl)
  | anchorMissing anchor => simp [made] at silent

theorem Target.IsStable.allIn_of_foldl (h : t.IsStable p) {is : List Insertion} (sub : is ⊆ t.insertions) {s : Spliced}
    (silent : (is.foldl (Spliced.next (entityContext e.name p.text)) s).warnings = []) :
    ∀ i ∈ is, AllIn (i.linesOf p e) (lines (is.foldl (Spliced.next (entityContext e.name p.text)) s).content) := by
  induction is generalizing s with
  | nil => simp
  | cons i is ih =>
    obtain ⟨hi, sub'⟩ := List.cons_subset.1 sub
    intro k hk
    rcases List.mem_cons.1 hk with rfl | hk
    · have started := warnings_foldl (entityContext e.name p.text) is (s.next (entityContext e.name p.text) k)
      rw [List.foldl_cons] at silent
      rw [silent] at started
      exact h.allIn_foldl sub' hi (h.allIn_of_next hi (List.prefix_nil.1 started))
    · exact ih sub' silent k hk

/-- A registration that reports nothing is complete, unless the marker was there before. -/
theorem Target.IsStable.isComplete_of_silent (h : t.IsStable p) {content : Text}
    (missing : ¬ Text.has content (t.markerOf p e) = true)
    (silent : (t.register (entityContext e.name p.text) content).warnings = []) :
    t.IsComplete p e ((t.register (entityContext e.name p.text) content).left content) := by
  rw [Target.register_of_missing missing] at silent ⊢
  exact h.allIn_of_foldl (s := { content := content }) (List.Subset.refl t.insertions) silent

theorem Target.IsStable.has_of_isComplete (h : t.IsStable p) {content : Text} (complete : t.IsComplete p e content) :
    Text.has content (t.markerOf p e) = true := by
  have hne := (h.neat e).ne_nil
  obtain ⟨i, is, hi⟩ := h.once.first
  have own : 0 < occurrencesIn (t.markerOf p e) (i.linesOf p e) := by
    rw [h.once.own i is hi, if_pos rfl]
    exact Nat.one_pos
  obtain ⟨l, hl, hm⟩ := (Text.occurrencesIn_pos_iff hne).1 own
  obtain ⟨m, hm', hi'⟩ := complete i (hi ▸ List.mem_cons_self) l hl
  rw [Text.has_iff, Text.infix_iff_lines hne (h.neat e).not_mem]
  exact ⟨m, hm', hm.trans hi'⟩

theorem Target.IsStable.has_of_silent (h : t.IsStable p) {content : Text}
    (silent : (t.register (entityContext e.name p.text) content).warnings = []) :
    Text.has ((t.register (entityContext e.name p.text) content).left content) (t.markerOf p e) = true := by
  by_cases there : Text.has content (t.markerOf p e) = true
  · rw [Target.register_of_has there, Outcome.left]
    exact there
  · exact h.has_of_isComplete (h.isComplete_of_silent there silent)

theorem Target.IsStable.has_of_idle (h : t.IsStable p) {content : Text}
    (idle : ∀ s, t.register (entityContext e.name p.text) content = .spliced s → s.applied = 0 ∧ s.warnings = []) :
    Text.has content (t.markerOf p e) = true := by
  by_contra missing
  have made := Target.register_of_missing missing
  obtain ⟨applied, warnings⟩ := idle _ made
  have same : (applyInsertions (entityContext e.name p.text) content t.insertions).content = content :=
    (content_of_applied (entityContext e.name p.text) t.insertions { content := content }).2 applied
  have there := h.has_of_silent (by rw [made]; exact warnings)
  rw [made, Outcome.left, same] at there
  exact missing there

end EntityScaffold.SharedFile
