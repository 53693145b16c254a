import EntityScaffold.Proofs.Template.Pieces
import EntityScaffold.Template.Context

/-
Texts in which no known slot starts, whatever follows them. A text put together from such texts is one again, so that
nothing in a filled template reads as a slot that should have been filled, neither inside of a value nor across its ends.
-/

namespace EntityScaffold.Template

variable {s t x r : Text} {c : Char} {n : Text}

theorem prefix_append_cons {y : Text} (h : y <+: x ++ c :: r) : y <+: x ∨ ∃ z, y = x ++ c :: z := by
  rcases List.prefix_or_prefix_of_prefix h (List.prefix_append x (c :: r)) with short | ⟨z, rfl⟩
  · exact Or.inl short
  · have rest : z <+: c :: r := (List.prefix_append_right_inj x).1 h
    cases z with
    | nil => exact Or.inl (by simp)
    | cons d z =>
      obtain rfl := (List.cons_prefix_cons.1 rest).1
      exact Or.inr ⟨z, rfl⟩

/-- No known slot is here, and no start of one that the text ends with. -/
def Unopened (t : Text) : Prop := ∀ n ∈ knownNames, compatible t (written n) = false

instance (t : Text) : Decidable (Unopened t) := inferInstanceAs (Decidable (∀ n ∈ knownNames, _))

/-- No known slot starts anywhere in the text, whatever follows it. -/
def Closed : Text → Prop
  | [] => True
  | c :: r => Unopened (c :: r) ∧ Closed r

instance decidableClosed : (t : Text) → Decidable (Closed t)
  | [] => .isTrue trivial
  | c :: r =>
    have := decidableClosed r
    inferInstanceAs (Decidable (Unopened (c :: r) ∧ Closed r))

theorem unopened_iff : Unopened t ↔ ∀ n ∈ knownNames, ¬ t <+: written n ∧ ¬ written n <+: t := by
  refine forall₂_congr fun n _ => ?_
  rw [Bool.eq_false_iff, ne_eq, compatible_iff, not_or]

theorem Unopened.append (h : Unopened t) (s : Text) : Unopened (t ++ s) := by
  rw [unopened_iff] at h ⊢
  intro n hn
  obtain ⟨part, whole⟩ := h n hn
  refine ⟨fun more => part ((List.prefix_append t s).trans more), fun start => ?_⟩
  rcases List.prefix_or_prefix_of_prefix start (List.prefix_append t s) with h | h
  · exact whole h
  · exact part h

theorem unopened_of_ne (h : c ≠ '$') (r : Text) : Unopened (c :: r) := by
  rw [unopened_iff]
  intro n hn
  exact ⟨fun part => h (List.cons_prefix_cons.1 part).1, fun whole => h (List.cons_prefix_cons.1 whole).1.symm⟩

theorem closed_nil : Closed [] := trivial

theorem Closed.cons (h : c ≠ '$') (hr : Closed r) : Closed (c :: r) := ⟨unopened_of_ne h r, hr⟩

theorem Closed.append (hs : Closed s) (ht : Closed t) : Closed (s ++ t) := by
  induction s with
  | nil => exact ht
  | cons c r ih => exact ⟨hs.1.append t, ih hs.2⟩

theorem closed_of_not_mem (h : '$' ∉ t) : Closed t := by
  induction t with
  | nil => exact closed_nil
  | cons c r ih =>
    obtain ⟨hc, hr⟩ := not_or.1 (mt List.mem_cons.2 h)
    exact (ih hr).cons (Ne.symm hc)

/-- A character that stands in no slot of a known name. -/
def isStop (c : Char) : Bool := !(isNamePart c || c = '$' || c = '\x7b' || c = '\x7d')

theorem not_mem_written_of_isStop (hc : isStop c = true) (hn : n ∈ knownNames) : c ∉ written n := by
  have parts : ∀ n ∈ knownNames, ∀ c ∈ written n, isStop c = false := by decide
  exact fun mem => absurd hc (by simp [parts n hn c mem])

theorem Closed.stopped (hx : '\x7d' ∉ x) (hc : isStop c = true) (hr : Closed r) : Closed (x ++ c :: r) := by
  induction x with
  | nil => exact hr.cons fun h => by simp [isStop, h] at hc
  | cons d x ih =>
    refine ⟨unopened_iff.2 fun n hn => ?_, ih fun h => hx (List.mem_cons_of_mem d h)⟩
    have apart := not_mem_written_of_isStop hc hn
    have reached : '\x7d' ∈ written n := by simp [written]
    constructor
    · exact fun part => apart (part.subset (List.mem_append_right (d :: x) List.mem_cons_self))
    · -- A slot that starts before the stop ends behind it, for its closing brace stands there.
      intro whole
      rcases prefix_append_cons (x := d :: x) whole with short | ⟨z, hz⟩
      · exact hx (short.subset reached)
      · exact apart (by rw [hz]; exact List.mem_append_right _ List.mem_cons_self)

theorem Closed.flatMap {α : Type} {f : α → Text} {as : List α} (h : ∀ a ∈ as, Closed (f a)) :
    Closed (as.flatMap f) := by
  induction as with
  | nil => exact closed_nil
  | cons a as ih =>
    rw [List.flatMap_cons]
    exact (h a List.mem_cons_self).append (ih fun b hb => h b (List.mem_cons_of_mem a hb))

theorem Closed.joinWith {sep : Text} {ts : List Text} (hsep : Closed sep) (h : ∀ t ∈ ts, Closed t) :
    Closed (Text.joinWith sep ts) := by
  induction ts with
  | nil => exact closed_nil
  | cons t ts ih =>
    cases ts with
    | nil => simpa [Text.joinWith] using h t List.mem_cons_self
    | cons u us =>
      rw [Text.joinWith, List.intercalate_cons_cons]
      exact ((h t List.mem_cons_self).append hsep).append (ih fun v hv => h v (List.mem_cons_of_mem t hv))

theorem Closed.absent (h : Closed t) (hn : n ∈ knownNames) : ¬ written n <:+: t := by
  induction t with
  | nil => exact fun inside => absurd (List.infix_nil.1 inside) (by simp [written])
  | cons c r ih =>
    intro inside
    rcases List.infix_cons_iff.1 inside with here | later
    · exact (unopened_iff.1 h.1 n hn).2 here
    · exact ih h.2 later

/-- The text of pieces up to the first known slot. -/
def ahead : List Piece → Text
  | [] => []
  | .plain c :: ps => c :: ahead ps
  | .slot name :: ps => if name ∈ knownNames then [] else written name ++ ahead ps

/-- No known slot starts in the pieces outside of their own known slots, whatever these are filled with. -/
def isSealed : List Piece → Bool
  | [] => true
  | .plain c :: ps => (c ≠ '$' || Unopened (c :: ahead ps)) && isSealed ps
  | .slot name :: ps => (knownNames.contains name || Unopened (written name ++ ahead ps)) && isSealed ps

/-- A context that fills the known slots, and no others, with closed texts. -/
structure Closes (context : Context) : Prop where
  known : ∀ n, (Entries.get? n context).isSome = true ↔ n ∈ knownNames
  closed : ∀ n v, Entries.get? n context = some v → Closed v

theorem fill_eq_ahead {context : Context} (closes : Closes context) (ps : List Piece) :
    ∃ more, fill context ps = ahead ps ++ more := by
  induction ps with
  | nil => exact ⟨[], rfl⟩
  | cons p ps ih =>
    obtain ⟨more, hmore⟩ := ih
    cases p with
    | plain c => exact ⟨more, by simp [Piece.fill, ahead, hmore]⟩
    | slot name =>
      by_cases known : name ∈ knownNames
      · exact ⟨fill context (.slot name :: ps), by rw [ahead, if_pos known, List.nil_append]⟩
      · have unfilled : Entries.get? name context = none := by
          rw [← Option.not_isSome_iff_eq_none, closes.known]
          exact known
        exact ⟨more, by simp [Piece.fill, ahead, known, unfilled, hmore]⟩

theorem closed_fill {context : Context} (closes : Closes context) {ps : List Piece} (h : isSealed ps = true)
    (named : ∀ name, .slot name ∈ ps → '$' ∉ name) : Closed (fill context ps) := by
  induction ps with
  | nil => exact closed_nil
  | cons p ps ih =>
    have later (sealed_ : isSealed ps = true) := ih sealed_ fun name hm => named name (List.mem_cons_of_mem p hm)
    obtain ⟨more, hmore⟩ := fill_eq_ahead closes ps
    rw [fill_cons]
    cases p with
    | plain c =>
      simp only [isSealed, Bool.and_eq_true, Bool.or_eq_true, decide_eq_true_eq] at h
      obtain ⟨here | here, rest⟩ := h
      · exact (later rest).cons here
      · refine ⟨?_, later rest⟩
        have unopened := here.append more
        rwa [List.cons_append, ← hmore] at unopened
    | slot name =>
      simp only [isSealed, Bool.and_eq_true, Bool.or_eq_true, decide_eq_true_eq, List.contains_iff_mem] at h
      obtain ⟨here, rest⟩ := h
      cases hv : Entries.get? name context with
      | some v =>
        have filled : (Piece.slot name).fill context = v := by simp [Piece.fill, hv]
        rw [filled]
        exact (closes.closed name v hv).append (later rest)
      | none =>
        have other : name ∉ knownNames := fun known => by simpa [hv] using (closes.known name).2 known
        have filled : (Piece.slot name).fill context = written name := by simp [Piece.fill, hv]
        have inner : '$' ∉ '\x7b' :: name ++ ['\x7d'] := by simpa using named name List.mem_cons_self
        have unopened := (here.resolve_left other).append more
        rw [List.append_assoc, ← hmore] at unopened
        rw [filled]
        exact ⟨unopened, (closed_of_not_mem inner).append (later rest)⟩

end EntityScaffold.Template
