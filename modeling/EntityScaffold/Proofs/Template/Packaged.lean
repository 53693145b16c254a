import EntityScaffold.Artifact.Catalog
import EntityScaffold.Proofs.Template.Expressions

/-
The packaged templates. Their lines are checked one by one, as every expression is on a line of its own: the check says that
no known slot starts across the ends of a value, whatever the values are, and that every expression has an end.
-/

namespace EntityScaffold.Template

open Artifact (Kind)

variable {t u r : Text} {context : Context}

theorem substitute_append_mark {c : Char} (part : isNamePart c = false) (dollar : c ≠ '$') (opening : c ≠ '\x7b')
    (closing : c ≠ '\x7d') (u w : Text) (context : Context) :
    substitute (u ++ c :: w) context = substitute u context ++ c :: substitute w context := by
  rw [substitute, pieces_append_mark part opening closing, pieces_cons (slotName?_of_ne dollar w)]
  simp [substitute, Piece.fill]

theorem substitute_lines (ls : List Text) (context : Context) :
    substitute (ls.flatMap (· ++ ['\n'])) context = ls.flatMap fun l => substitute (l ++ ['\n']) context := by
  have line (l w : Text) := substitute_append_mark (c := '\n') (by decide) (by decide) (by decide) (by decide) l w context
  induction ls with
  | nil => rfl
  | cons l ls ih =>
    rw [List.flatMap_cons, List.flatMap_cons, List.append_assoc, List.singleton_append, line, ih, line]
    simp [substitute, pieces, piecesAfter]

section Expressions

/-- Every expression of a text has an end. -/
def Opened (t : Text) : Prop :=
  ∀ u r, t = u ++ '$' :: '\x7b' :: r → ∃ e v, Balanced e ∧ r = e ++ '\x7d' :: v

/-- Whether a brace closes what is open, so deep, before the text. -/
def closesFrom : ℕ → Text → Bool
  | _, [] => false
  | d, c :: r =>
    if c = '\x7b' then closesFrom (d + 1) r
    else if c = '\x7d' then d = 0 || closesFrom (d - 1) r
    else closesFrom d r

def isOpened : Text → Bool
  | [] => true
  | c :: r => (c ≠ '$' || r.head? ≠ some '\x7b' || closesFrom 0 r.tail) && isOpened r

theorem exists_of_closesFrom {d : ℕ} (h : closesFrom d t = true) :
    ∃ e v, openAfter d e = some 0 ∧ t = e ++ '\x7d' :: v := by
  induction t generalizing d with
  | nil => exact absurd h (by simp [closesFrom])
  | cons c r ih =>
    rw [closesFrom] at h
    split at h
    · next opening =>
      obtain ⟨e, v, he, rfl⟩ := ih h
      exact ⟨c :: e, v, by rw [openAfter, if_pos opening, he], rfl⟩
    · next opening =>
      split at h
      · next closing =>
        by_cases outer : d = 0
        · exact ⟨[], r, by simp [outer, openAfter], by simp [closing]⟩
        · obtain ⟨e, v, he, rfl⟩ := ih (by simpa [outer] using h)
          exact ⟨c :: e, v, by rw [openAfter, if_neg opening, if_pos closing, if_neg outer, he], rfl⟩
      · next closing =>
        obtain ⟨e, v, he, rfl⟩ := ih h
        exact ⟨c :: e, v, by rw [openAfter, if_neg opening, if_neg closing, he], rfl⟩

theorem opened_of_isOpened (h : isOpened t = true) : Opened t := by
  induction t with
  | nil => exact fun u r ht => absurd ht (by simp)
  | cons c s ih =>
    simp only [isOpened, Bool.and_eq_true, Bool.or_eq_true, decide_eq_true_eq] at h
    obtain ⟨here, later⟩ := h
    intro u r ht
    cases u with
    | cons d u => exact ih later u r (List.cons.inj ht).2
    | nil =>
      obtain ⟨rfl, rfl⟩ := List.cons.inj ht
      exact exists_of_closesFrom (by simpa using here)

theorem Opened.line {l : Text} (hl : Opened l) (ht : Opened t) : Opened (l ++ '\n' :: t) := by
  intro u r h
  rcases List.append_eq_append_iff.1 h with ⟨x, -, hx⟩ | ⟨x, rfl, hx⟩
  · cases x with
    | nil => exact absurd (List.cons.inj hx).1 (by decide)
    | cons d x => exact ht x r (List.cons.inj hx).2
  · match x, hx with
    | [], hx => exact absurd (List.cons.inj hx).1 (by decide)
    | [_], hx => exact absurd (List.cons.inj (List.cons.inj hx).2).1 (by decide)
    | d :: o :: x, hx =>
      simp only [List.cons_append, List.cons.injEq] at hx
      obtain ⟨rfl, rfl, rfl⟩ := hx
      obtain ⟨e, v, he, rfl⟩ := hl u x rfl
      exact ⟨e, v ++ '\n' :: t, he, by simp⟩

theorem opened_lines {ls : List Text} (h : ∀ l ∈ ls, Opened l) : Opened (ls.flatMap (· ++ ['\n'])) := by
  induction ls with
  | nil => exact opened_of_isOpened rfl
  | cons l ls ih =>
    rw [List.flatMap_cons, List.append_assoc]
    exact (h l List.mem_cons_self).line (ih fun m hm => h m (List.mem_cons_of_mem l hm))

end Expressions

/-- Whether a line of a template can be filled with closed texts, and its expressions have ends. -/
def isSound (line : Text) : Bool := isSealed (pieces (line ++ ['\n'])) && isOpened line

/-- Texts and the strings that they are the characters of. They are found by unification, so that no string has to be decoded. -/
inductive Spells : List Text → List String → Prop
  | nil : Spells [] []
  | cons {t : Text} {ts : List Text} {ls : List String} (rest : Spells ts ls) : Spells (t :: ts) (String.ofList t :: ls)

theorem Spells.map_toList {ts : List Text} {ls : List String} (h : Spells ts ls) : ls.map String.toList = ts := by
  induction h with
  | nil => rfl
  | cons rest ih => rw [List.map_cons, ih, String.toList_ofList]

theorem Spells.forall_mem {p : Text → Bool} {ts : List Text} {ls : List String} (spells : Spells ts ls)
    (all : ts.all p = true) : ∀ l ∈ ls, p l.toList = true := by
  intro l hl
  have mem : l.toList ∈ ts := spells.map_toList ▸ List.mem_map_of_mem hl
  exact List.all_eq_true.1 all _ mem

theorem packagedLines_sound (k : Kind) : ∀ l ∈ k.packagedLines, isSound l.toList = true := by
  cases k
  all_goals
    apply Spells.forall_mem (p := isSound)
    case spells =>
      dsimp only [Kind.packagedLines, Packaged.model, Packaged.controller, Packaged.service, Packaged.routes,
        Packaged.validator, Packaged.docPaths, Packaged.docDefinition, Packaged.controllerTest, Packaged.serviceTest,
        Packaged.integrationTest]
      repeat constructor
    case all => decide +kernel

theorem packaged_eq (k : Kind) : k.packaged = (k.packagedLines.map String.toList).flatMap (· ++ ['\n']) := by
  rw [List.flatMap_map]
  rfl

/-- No known slot is left in a filled packaged template, nor does one arise in it. -/
theorem closed_packaged (closes : Closes context) (k : Kind) : Closed (substitute k.packaged context) := by
  rw [packaged_eq, substitute_lines]
  refine .flatMap fun line hline => ?_
  obtain ⟨l, hl, rfl⟩ := List.mem_map.1 hline
  have sound := packagedLines_sound k l hl
  rw [isSound, Bool.and_eq_true] at sound
  refine closed_fill closes sound.1 fun name hname => ?_
  exact not_mem_slotName (written_infix_of_mem_pieces hname).1 (by decide)

theorem opened_packaged (k : Kind) : Opened k.packaged := by
  rw [packaged_eq]
  refine opened_lines fun line hline => ?_
  obtain ⟨l, hl, rfl⟩ := List.mem_map.1 hline
  have sound := packagedLines_sound k l hl
  rw [isSound, Bool.and_eq_true] at sound
  exact opened_of_isOpened sound.2

/-- What a template becomes that is filled and has no known slot left. An expression of it that is no known slot is kept, with
the known slots inside of it filled. -/
structure Rendered (template : Text) (context : Context) (content : Text) : Prop where
  eq : content = substitute template context
  gone : ∀ n ∈ knownNames, ¬ written n <:+: content
  filled : ∀ n ∈ knownNames, ∃ value, Entries.get? n context = some value ∧
    ∀ u v, substitute (u ++ (written n ++ v)) context = substitute u context ++ (value ++ substitute v context)
  opened : Opened template
  kept : ∀ u e v, template = u ++ (written e ++ v) → Balanced e → e ∉ knownNames →
    content = substitute u context ++ (written (substitute e context) ++ substitute v context)

theorem rendered_packaged (closes : Closes context) (k : Kind) :
    Rendered k.packaged context (substitute k.packaged context) where
  eq := rfl
  gone n hn := (closed_packaged closes k).absent hn
  filled n hn := by
    have named : ∀ n ∈ knownNames, isSlotName n = true := by decide
    obtain ⟨value, hvalue⟩ := Option.isSome_iff_exists.1 ((closes.known n).2 hn)
    exact ⟨value, hvalue, substitute_slot (named n hn) hvalue⟩
  opened := opened_packaged k
  kept u e v whole balanced other := by
    have novalue : Entries.get? e context = none := by
      rw [← Option.not_isSome_iff_eq_none, closes.known]
      exact other
    rw [whole]
    exact substitute_expression balanced novalue u v

end EntityScaffold.Template
