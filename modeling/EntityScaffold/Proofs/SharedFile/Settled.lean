import EntityScaffold.SharedFile.Registration
import EntityScaffold.Proofs.SharedFile.Catalog

/-
Settled insertions: those that would change nothing, since their block is there or there is no place for it. An
insertion settles itself and unsettles no other, so a second registration of an entity finds everything settled.
-/

namespace EntityScaffold.SharedFile

open Naming (Identifier AddressPrefix)
open Text (lines firstWith? occurrencesIn)

variable {i k : Insertion} {t : Target} {p : AddressPrefix} {e : Identifier}

/-- A section after lines of a file were replaced by others: its body is kept, or has the same lines replaced. -/
theorem tagged?_replaced {name : Text} {old new : List Text} (begins : ∀ l ∈ old ++ new, ¬ beginMarker name <:+: l)
    (ends : (∃ l ∈ old, endMarker name <:+: l) ↔ ∃ l ∈ new, endMarker name <:+: l) (short : old.length ≤ 1)
    (us vs : List Text) :
    (tagged? name (us ++ (old ++ vs)) = none ∧ tagged? name (us ++ (new ++ vs)) = none) ∨
      ∃ s s', tagged? name (us ++ (old ++ vs)) = some s ∧ tagged? name (us ++ (new ++ vs)) = some s' ∧
        (s.body ⊆ s'.body ∨ ∃ a b, s.body = a ++ (old ++ b) ∧ s'.body = a ++ (new ++ b)) := by
  have noneOld : firstWith? (beginMarker name) old = none :=
    Text.firstWith?_eq_none_iff.2 fun l hl => begins l (List.mem_append_left new hl)
  have noneNew : firstWith? (beginMarker name) new = none :=
    Text.firstWith?_eq_none_iff.2 fun l hl => begins l (List.mem_append_right old hl)
  simp only [tagged?, Text.firstWith?_append _ us, Text.firstWith?_append _ old, Text.firstWith?_append _ new, noneOld,
    noneNew]
  cases firstWith? (beginMarker name) us with
  | none =>
    -- The section begins after the lines that were replaced, if at all.
    cases firstWith? (beginMarker name) vs with
    | none => simp
    | some q =>
      obtain ⟨ws, opening, rest⟩ := q
      cases hclose : firstWith? (endMarker name) rest with
      | none => simp [hclose]
      | some q => simp [hclose]
  | some q =>
    obtain ⟨ws, opening, rest⟩ := q
    simp only [Option.bind_some, Text.firstWith?_append _ rest, Text.firstWith?_append _ old,
      Text.firstWith?_append _ new]
    cases firstWith? (endMarker name) rest with
    | some q => simp
    | none =>
      cases hold : firstWith? (endMarker name) old with
      | none =>
        have hnew : firstWith? (endMarker name) new = none := by
          rw [Text.firstWith?_eq_none_iff] at hold ⊢
          intro l hl hi
          obtain ⟨m, hm, hi⟩ := ends.2 ⟨l, hl, hi⟩
          exact hold m hm hi
        cases firstWith? (endMarker name) vs with
        | none => simp [hnew]
        | some q =>
          right
          simp only [hnew, Option.map_some]
          exact ⟨_, _, rfl, rfl, Or.inr ⟨rest, q.1, rfl, rfl⟩⟩
      | some q =>
        obtain ⟨x, l, y⟩ := q
        obtain ⟨hx, -, hl⟩ := Text.firstWith?_eq_some_iff.1 hold
        obtain rfl : x = [] := by
          have : x.length + (y.length + 1) ≤ 1 := by simpa [hx] using short
          exact List.length_eq_zero_iff.1 (by omega)
        cases hnew : firstWith? (endMarker name) new with
        | none =>
          obtain ⟨m, hm, hi⟩ := ends.1 ⟨l, by simp [hx], hl⟩
          exact absurd hi (Text.firstWith?_eq_none_iff.1 hnew m hm)
        | some q => simp

theorem tagged?_extended {name : Text} {ls new : List Text} {s : Tagged} (h : tagged? name ls = some s)
    (ends : ∀ l ∈ new, ¬ endMarker name <:+: l) :
    tagged? name (s.before ++ (s.body ++ (new ++ s.closing :: s.after))) = some { s with body := s.body ++ new } := by
  obtain ⟨⟨us, opening, rest⟩, hopen, h⟩ := Option.bind_eq_some_iff.1 h
  obtain ⟨⟨body, closing, after⟩, hclose, rfl⟩ := Option.map_eq_some_iff.1 h
  obtain ⟨-, hus, hopening⟩ := Text.firstWith?_eq_some_iff.1 hopen
  obtain ⟨-, hbody, hclosing⟩ := Text.firstWith?_eq_some_iff.1 hclose
  have opens : firstWith? (beginMarker name) (us ++ opening :: (body ++ (new ++ closing :: after))) =
      some (us, opening, _) :=
    Text.firstWith?_eq_some_iff.2 ⟨rfl, hus, hopening⟩
  have closes : firstWith? (endMarker name) ((body ++ new) ++ closing :: after) =
      some (body ++ new, closing, after) := by
    refine Text.firstWith?_eq_some_iff.2 ⟨rfl, ?_, hclosing⟩
    intro l hl
    rcases List.mem_append.1 hl with hl | hl
    · exact hbody l hl
    · exact ends l hl
  rw [List.append_assoc] at closes
  simp [tagged?, opens, closes]

/-- The insertion of a block would change nothing: its section holds it, or the file does, or there is no place for it. -/
def Insertion.IsSettled (block : List Text) (i : Insertion) (ls : List Text) : Prop :=
  match i.tagged? ls with
  | some s => AllIn block s.body
  | none => AllIn block ls ∨ ∀ l ∈ ls, ¬ i.anchor <:+: l

/-- Lines that can replace others without unsettling an insertion. -/
structure Insertion.Allows (block : List Text) (i : Insertion) (old new : List Text) : Prop where
  short : old.length ≤ 1
  begins : ∀ name, i.sectionName = some name → ∀ l ∈ old ++ new, ¬ beginMarker name <:+: l
  ends : ∀ name, i.sectionName = some name → ((∃ l ∈ old, endMarker name <:+: l) ↔ ∃ l ∈ new, endMarker name <:+: l)
  kept : ∀ l ∈ block, (∃ m ∈ old, l <:+: m) → ∃ m ∈ new, l <:+: m
  anchors : (∃ l ∈ new, i.anchor <:+: l) → ∃ l ∈ old, i.anchor <:+: l

theorem AllIn.replaced {block old new : List Text} (kept : ∀ l ∈ block, (∃ m ∈ old, l <:+: m) → ∃ m ∈ new, l <:+: m)
    {us vs : List Text} (h : AllIn block (us ++ (old ++ vs))) : AllIn block (us ++ (new ++ vs)) := by
  intro l hl
  obtain ⟨m, hm, hi⟩ := h l hl
  simp only [List.mem_append] at hm
  rcases hm with hm | hm | hm
  · exact ⟨m, by simp [hm], hi⟩
  · obtain ⟨n, hn, hi⟩ := kept l hl ⟨m, hm, hi⟩
    exact ⟨n, by simp [hn], hi⟩
  · exact ⟨m, by simp [hm], hi⟩

theorem Insertion.tagged?_eq {name : Text} (h : i.sectionName = some name) (ls : List Text) :
    i.tagged? ls = if name.isEmpty then none else SharedFile.tagged? name ls := by
  rw [Insertion.tagged?, h]

theorem Insertion.Allows.tagged? {block old new : List Text} (h : i.Allows block old new) (us vs : List Text) :
    (i.tagged? (us ++ (old ++ vs)) = none ∧ i.tagged? (us ++ (new ++ vs)) = none) ∨
      ∃ s s', i.tagged? (us ++ (old ++ vs)) = some s ∧ i.tagged? (us ++ (new ++ vs)) = some s' ∧
        (s.body ⊆ s'.body ∨ ∃ a b, s.body = a ++ (old ++ b) ∧ s'.body = a ++ (new ++ b)) := by
  cases hn : i.sectionName with
  | none => exact Or.inl ⟨by simp [Insertion.tagged?, hn], by simp [Insertion.tagged?, hn]⟩
  | some name =>
    rw [Insertion.tagged?_eq hn, Insertion.tagged?_eq hn]
    cases name.isEmpty with
    | true => exact Or.inl ⟨rfl, rfl⟩
    | false => exact tagged?_replaced (h.begins name hn) (h.ends name hn) h.short us vs

theorem Insertion.Allows.isSettled {block old new us vs : List Text} (h : i.Allows block old new)
    (hs : i.IsSettled block (us ++ (old ++ vs))) : i.IsSettled block (us ++ (new ++ vs)) := by
  unfold Insertion.IsSettled at hs ⊢
  rcases h.tagged? us vs with ⟨hold, hnew⟩ | ⟨s, s', hold, hnew, hbody⟩
  · rw [hold] at hs
    rw [hnew]
    rcases hs with hall | hlost
    · exact Or.inl (hall.replaced h.kept)
    · right
      intro l hl hi
      simp only [List.mem_append] at hl hlost
      rcases hl with hl | hl | hl
      · exact hlost l (Or.inl hl) hi
      · obtain ⟨m, hm, hi⟩ := h.anchors ⟨l, hl, hi⟩
        exact hlost m (Or.inr (Or.inl hm)) hi
      · exact hlost l (Or.inr (Or.inr hl)) hi
  · rw [hold] at hs
    rw [hnew]
    rcases hbody with hsub | ⟨a, b, hb, hb'⟩
    · exact hs.mono hsub
    · change AllIn block s'.body
      change AllIn block s.body at hs
      rw [hb']
      rw [hb] at hs
      exact hs.replaced h.kept

/-- No line holds both the start of a section's tag and an anchor. -/
def Target.KeepsApart (t : Target) (ls : List Text) : Prop :=
  ∀ l ∈ ls, beginTag <:+: l → ∀ i ∈ t.insertions, ¬ i.anchor <:+: l

instance (t : Target) (ls : List Text) : Decidable (t.KeepsApart ls) :=
  inferInstanceAs (Decidable (∀ l ∈ ls, beginTag <:+: l → ∀ i ∈ t.insertions, ¬ i.anchor <:+: l))

theorem beginTag_starts (name : Text) : beginTag <+: beginMarker name :=
  (show beginTag <+: "// crudgen:begin ".toList by decide).trans (List.prefix_append _ name)

theorem Target.IsStable.fixture_iff (h : t.IsStable p) {n : Text} (hn : n ∈ t.fixtures) (hi : i ∈ t.insertions)
    {old new : List Text} (entered : Entered i.anchor (i.linesOf p e) old new) :
    (∃ l ∈ old, n <:+: l) ↔ ∃ l ∈ new, n <:+: l := by
  obtain ⟨clear, absent⟩ := h.fixtures e n hn i hi
  rw [← Text.occurrencesIn_pos_iff clear.ne_nil, ← Text.occurrencesIn_pos_iff clear.ne_nil,
    entered.occurrencesIn_eq clear, absent, Nat.add_zero]

theorem Target.anchor_mem_fixtures (hi : i ∈ t.insertions) : i.anchor ∈ t.fixtures :=
  List.mem_cons_of_mem _ (List.mem_append_left _ (List.mem_map_of_mem hi))

theorem Target.endMarker_mem_fixtures {name : Text} (hi : i ∈ t.insertions) (hn : i.sectionName = some name) :
    endMarker name ∈ t.fixtures :=
  List.mem_cons_of_mem _ (List.mem_append_right _ (List.mem_filterMap.2 ⟨i, hi, by simp [hn]⟩))

theorem Entered.old_cases {anchor : Text} {block old new : List Text} (h : Entered anchor block old new) :
    old.length ≤ 1 ∧ ∀ l ∈ old, anchor <:+: l := by
  cases h with
  | whole entered => simp
  | within parts start finish =>
    refine ⟨Nat.le_refl 1, ?_⟩
    intro l hl
    obtain rfl := List.mem_singleton.1 hl
    exact ⟨start, finish, by simp⟩

/-- No insertion unsettles another, in a file that keeps tags and anchors apart. -/
theorem Target.IsStable.allows (h : t.IsStable p) (hi : i ∈ t.insertions) (hk : k ∈ t.insertions) {old new : List Text}
    (apart : ∀ l ∈ old, ¬ beginTag <:+: l) (entered : Entered i.anchor (i.linesOf p e) old new) :
    k.Allows (k.linesOf p e) old new := by
  have tags : ∀ l ∈ old ++ new, ¬ beginTag <:+: l := by
    intro l hl htag
    rcases List.mem_append.1 hl with hl | hl
    · exact apart l hl htag
    · obtain ⟨m, hm, htag⟩ := (h.fixture_iff List.mem_cons_self hi entered).2 ⟨l, hl, htag⟩
      exact apart m hm htag
  refine ⟨entered.old_cases.1, ?_, ?_, ?_, ?_⟩
  · intro name _ l hl hb
    exact tags l hl ((beginTag_starts name).isInfix.trans hb)
  · intro name hn
    exact h.fixture_iff (Target.endMarker_mem_fixtures hk hn) hi entered
  · intro l hl hold
    exact entered.kept ((h.renders e k hk).neat l hl).ne_nil (h.blocks e k hk l hl i hi) hold
  · exact (h.fixture_iff (Target.anchor_mem_fixtures hk) hi entered).2

/-- An insertion leaves the text as it is, or its block enters before its anchor or at the end of its section. -/
theorem Target.IsStable.next_cases (h : t.IsStable p) (hi : i ∈ t.insertions) (e : Identifier) (s : Spliced) :
    (s.next (entityContext e.name p.text) i).content = s.content ∨
      ∃ us old new vs, lines s.content = us ++ (old ++ vs) ∧
        lines (s.next (entityContext e.name p.text) i).content = us ++ (new ++ vs) ∧
        Entered i.anchor (i.linesOf p e) old new := by
  have by_lines := splice_by_lines (h.renders e i hi) s.content
  unfold Spliced.next
  cases made : splice (entityContext e.name p.text) s.content i with
  | alreadyThere => exact Or.inl rfl
  | anchorMissing anchor => exact Or.inl rfl
  | inserted content => exact Or.inr (made ▸ by_lines).entered

theorem Target.KeepsApart.not_tagged {ls us old new vs block : List Text} (apart : t.KeepsApart ls)
    (hi : i ∈ t.insertions) (before : ls = us ++ (old ++ vs)) (entered : Entered i.anchor block old new) : ∀ l ∈ old, ¬ beginTag <:+: l := by
  intro l hl htag
  exact apart l (by simp [before, hl]) htag i hi (entered.old_cases.2 l hl)

theorem Target.IsStable.keepsApart_next (h : t.IsStable p) (hi : i ∈ t.insertions) {s : Spliced}
    (apart : t.KeepsApart (lines s.content)) :
    t.KeepsApart (lines (s.next (entityContext e.name p.text) i).content) := by
  rcases h.next_cases hi e s with same | ⟨us, old, new, vs, before, after, entered⟩
  · rw [same]
    exact apart
  · intro l hl htag k hk
    simp only [after, List.mem_append] at hl
    rcases hl with hl | hl | hl
    · exact apart l (by simp [before, hl]) htag k hk
    · obtain ⟨m, hm, htag⟩ := (h.fixture_iff List.mem_cons_self hi entered).2 ⟨l, hl, htag⟩
      exact absurd htag (apart.not_tagged hi before entered m hm)
    · exact apart l (by simp [before, hl]) htag k hk

theorem Target.IsStable.isSettled_next_of_isSettled (h : t.IsStable p) (hi : i ∈ t.insertions)
    (hk : k ∈ t.insertions) {s : Spliced} (apart : t.KeepsApart (lines s.content)) (settled : k.IsSettled (k.linesOf p e) (lines s.content)) :
    k.IsSettled (k.linesOf p e) (lines (s.next (entityContext e.name p.text) i).content) := by
  rcases h.next_cases hi e s with same | ⟨us, old, new, vs, before, after, entered⟩
  · rw [same]
    exact settled
  · rw [after]
    rw [before] at settled
    exact (h.allows hi hk (apart.not_tagged hi before entered) entered).isSettled settled

theorem Target.IsStable.isSettled_extended (h : t.IsStable p) (hi : i ∈ t.insertions) {ls new : List Text} {s : Tagged}
    (found : i.tagged? ls = some s) (entered : List.Forall₂ Indented (i.linesOf p e) new) :
    i.IsSettled (i.linesOf p e) (s.before ++ (s.body ++ (new ++ s.closing :: s.after))) := by
  cases hn : i.sectionName with
  | none => simp [Insertion.tagged?, hn] at found
  | some name =>
    have nowhere : ∀ l ∈ new, ¬ endMarker name <:+: l := by
      intro l hl he
      obtain ⟨m, hm, -⟩ := (h.fixture_iff (Target.endMarker_mem_fixtures hi hn) hi (.whole entered)).2 ⟨l, hl, he⟩
      exact absurd hm List.not_mem_nil
    rw [Insertion.IsSettled, Insertion.tagged?_eq hn]
    rw [Insertion.tagged?_eq hn] at found
    cases he : name.isEmpty with
    | true => simp [he] at found
    | false =>
      simp only [he, Bool.false_eq_true, if_false] at found ⊢
      rw [tagged?_extended found nowhere]
      exact (allIn_of_indented entered).mono (List.subset_append_right s.body new)

theorem Target.IsStable.isSettled_next (h : t.IsStable p) (hi : i ∈ t.insertions) {s : Spliced}
    (apart : t.KeepsApart (lines s.content)) :
    i.IsSettled (i.linesOf p e) (lines (s.next (entityContext e.name p.text) i).content) := by
  have by_lines := splice_by_lines (h.renders e i hi) s.content
  unfold Spliced.next
  cases made : splice (entityContext e.name p.text) s.content i with
  | alreadyThere =>
    rw [made] at by_lines
    unfold Insertion.IsSettled
    cases by_lines with
    | thereInSection found there => rw [found]; exact there
    | thereInText missing there => rw [missing]; exact Or.inl there
  | anchorMissing anchor =>
    rw [made] at by_lines
    unfold Insertion.IsSettled
    cases by_lines with
    | nowhere missing absent lost => rw [missing]; exact Or.inr lost
  | inserted content =>
    rw [made] at by_lines
    cases by_lines with
    | intoSection found absent entered after =>
      change i.IsSettled _ (lines content)
      rw [after]
      exact h.isSettled_extended hi found entered
    | @beforeAnchor us old new vs content missing absent place before entered after =>
      change i.IsSettled _ (lines content)
      -- A section that the file did not have has not come up either, so the block is looked for in the whole file.
      rcases (h.allows hi hi (apart.not_tagged hi before entered) entered).tagged? us vs with
        ⟨-, hnew⟩ | ⟨s', -, hfound, -⟩
      · rw [Insertion.IsSettled, after, hnew]
        exact Or.inl (entered.allIn.mono fun l hl => by simp [hl])
      · rw [← before, missing] at hfound
        exact absurd hfound (by simp)

theorem Target.IsStable.isSettled_foldl (h : t.IsStable p) {is : List Insertion} (sub : is ⊆ t.insertions)
    (hk : k ∈ t.insertions) {s : Spliced} (apart : t.KeepsApart (lines s.content)) (settled : k.IsSettled (k.linesOf p e) (lines s.content)) :
    k.IsSettled (k.linesOf p e) (lines (is.foldl (Spliced.next (entityContext e.name p.text)) s).content) := by
  induction is generalizing s with
  | nil => exact settled
  | cons i is ih =>
    obtain ⟨hi, sub⟩ := List.cons_subset.1 sub
    exact ih sub (h.keepsApart_next hi apart) (h.isSettled_next_of_isSettled hi hk apart settled)

/-- Insertions one after the other are all settled in the end. -/
theorem Target.IsStable.foldl_isSettled (h : t.IsStable p) {is : List Insertion} (sub : is ⊆ t.insertions) {s : Spliced}
    (apart : t.KeepsApart (lines s.content)) : ∀ i ∈ is,
      i.IsSettled (i.linesOf p e) (lines (is.foldl (Spliced.next (entityContext e.name p.text)) s).content) := by
  induction is generalizing s with
  | nil => exact fun i hi => absurd hi List.not_mem_nil
  | cons i is ih =>
    obtain ⟨hi, sub'⟩ := List.cons_subset.1 sub
    have apart' := h.keepsApart_next (e := e) hi apart
    intro k hk
    rcases List.mem_cons.1 hk with rfl | hk
    · exact h.isSettled_foldl sub' hi apart' (h.isSettled_next hi apart)
    · exact ih sub' apart' k hk

theorem Target.IsStable.next_of_isSettled (h : t.IsStable p) (hi : i ∈ t.insertions) {s : Spliced}
    (settled : i.IsSettled (i.linesOf p e) (lines s.content)) :
    (s.next (entityContext e.name p.text) i).content = s.content ∧
      (s.next (entityContext e.name p.text) i).applied = s.applied := by
  have by_lines := splice_by_lines (h.renders e i hi) s.content
  unfold Insertion.IsSettled at settled
  unfold Spliced.next
  cases made : splice (entityContext e.name p.text) s.content i with
  | alreadyThere => exact ⟨rfl, rfl⟩
  | anchorMissing anchor => exact ⟨rfl, rfl⟩
  | inserted content =>
    rw [made] at by_lines
    cases by_lines with
    | intoSection found absent entered after =>
      rw [found] at settled
      exact absurd settled absent
    | beforeAnchor missing absent place before entered after =>
      rw [missing] at settled
      obtain ⟨l, hl, hi⟩ := place
      rcases settled with hall | hlost
      · exact absurd hall absent
      · exact absurd hi (hlost l hl)

/-- The text that a registration leaves. -/
def Outcome.left (content : Text) : Outcome → Text
  | .registered => content
  | .spliced s => s.content

/-- A registration that finds the entity registered, or nothing to insert. -/
def Outcome.IsIdle (content : Text) : Outcome → Prop
  | .registered => True
  | .spliced s => s.content = content ∧ s.applied = 0

theorem Target.IsStable.foldl_next_of_isSettled (h : t.IsStable p) {is : List Insertion} (sub : is ⊆ t.insertions)
    {s : Spliced} (settled : ∀ i ∈ is, i.IsSettled (i.linesOf p e) (lines s.content)) :
    (is.foldl (Spliced.next (entityContext e.name p.text)) s).content = s.content ∧
      (is.foldl (Spliced.next (entityContext e.name p.text)) s).applied = s.applied := by
  induction is generalizing s with
  | nil => exact ⟨rfl, rfl⟩
  | cons i is ih =>
    obtain ⟨hi, sub⟩ := List.cons_subset.1 sub
    obtain ⟨content, applied⟩ := h.next_of_isSettled hi (settled i List.mem_cons_self)
    obtain ⟨content', applied'⟩ := ih sub fun k hk => by
      rw [content]
      exact settled k (List.mem_cons_of_mem i hk)
    exact ⟨content'.trans content, applied'.trans applied⟩

theorem Target.register_of_has {content : Text} (there : Text.has content (t.markerOf p e) = true) :
    t.register (entityContext e.name p.text) content = .registered := by
  rw [Target.register, ← Target.markerOf, if_pos there]

theorem Target.register_of_missing {content : Text} (missing : ¬ Text.has content (t.markerOf p e) = true) :
    t.register (entityContext e.name p.text) content =
      .spliced (applyInsertions (entityContext e.name p.text) content t.insertions) := by
  rw [Target.register, ← Target.markerOf, if_neg missing]

theorem Target.IsStable.isIdle_again (h : t.IsStable p) {content : Text} (apart : t.KeepsApart (lines content)) :
    (t.register (entityContext e.name p.text)
      ((t.register (entityContext e.name p.text) content).left content)).IsIdle
      ((t.register (entityContext e.name p.text) content).left content) := by
  by_cases there : Text.has content (t.markerOf p e) = true
  · rw [Target.register_of_has there, Outcome.left, Target.register_of_has there]
    trivial
  · rw [Target.register_of_missing there, Outcome.left]
    by_cases there' : Text.has (applyInsertions (entityContext e.name p.text) content t.insertions).content
        (t.markerOf p e) = true
    · rw [Target.register_of_has there']
      trivial
    · rw [Target.register_of_missing there']
      have settled := h.foldl_isSettled (e := e) (List.Subset.refl t.insertions) (s := { content := content }) apart
      exact h.foldl_next_of_isSettled (List.Subset.refl t.insertions) settled

end EntityScaffold.SharedFile
