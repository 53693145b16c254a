import EntityScaffold.Proofs.Template.Closed

/-
Slots and other expressions of a template. A template falls into pieces alike before and after an expression and inside of
it, so that an expression that is no slot with a value is kept, with the slots inside of it filled.
-/

namespace EntityScaffold.Template

variable {name t u v w r : Text} {c : Char} {context : Context}

/-- A name that a slot can have. -/
def isSlotName : Text → Bool
  | [] => false
  | c :: r => isNameStart c && r.all isNamePart

theorem isNamePart_of_isNameStart (h : isNameStart c = true) : isNamePart c = true := by
  simp only [isNameStart, Bool.or_eq_true] at h
  rcases h with h | h
  · simp [isNamePart, Char.isAlphanum, h]
  · simp [isNamePart, h]

theorem isNamePart_of_mem (hname : isSlotName name = true) (hc : c ∈ name) : isNamePart c = true := by
  cases name with
  | nil => exact absurd hc (by simp)
  | cons d r =>
    simp only [isSlotName, Bool.and_eq_true, List.all_eq_true] at hname
    rcases List.mem_cons.1 hc with rfl | hc
    · exact isNamePart_of_isNameStart hname.1
    · exact hname.2 c hc

theorem slotName?_eq_some_iff : slotName? t = some name ↔ isSlotName name = true ∧ written name <+: t := by
  constructor
  · intro h
    unfold slotName? at h
    split at h
    · next c r =>
      split at h
      · next start =>
        split at h
        · next rest hrest =>
          obtain rfl := Option.some.inj h
          have parts : (r.takeWhile isNamePart).all isNamePart = true := List.all_takeWhile
          refine ⟨by simp only [isSlotName, start, parts, Bool.and_self], rest, ?_⟩
          conv_rhs => rw [← List.takeWhile_append_dropWhile (p := isNamePart) (l := r), hrest]
          simp [written]
        · exact absurd h (by simp)
      · exact absurd h (by simp)
    · exact absurd h (by simp)
  · rintro ⟨hname, rest, rfl⟩
    cases name with
    | nil => exact absurd hname (by simp [isSlotName])
    | cons c r =>
      simp only [isSlotName, Bool.and_eq_true, List.all_eq_true] at hname
      have brace : isNamePart '\x7d' = false := by decide
      have parted : (r ++ '\x7d' :: rest).dropWhile isNamePart = '\x7d' :: rest := by
        rw [List.dropWhile_append_of_pos hname.2, List.dropWhile_cons_of_neg (by simp [brace])]
      have taken : (r ++ '\x7d' :: rest).takeWhile isNamePart = r := by
        rw [List.takeWhile_append_of_pos hname.2, List.takeWhile_cons_of_neg (by simp [brace]), List.append_nil]
      simp [written, slotName?, hname.1, parted, taken]

theorem written_infix_of_mem_piecesAfter {owed : ℕ} (h : .slot name ∈ piecesAfter owed t) :
    isSlotName name = true ∧ written name <:+: t := by
  induction t generalizing owed with
  | nil => exact absurd h (by simp [piecesAfter])
  | cons c r ih =>
    have later {owed : ℕ} (h : .slot name ∈ piecesAfter owed r) : isSlotName name = true ∧ written name <:+: c :: r :=
      (ih h).imp_right List.infix_cons
    cases owed with
    | succ owed => exact later h
    | zero =>
      rw [piecesAfter] at h
      split at h
      · next found =>
        rcases List.mem_cons.1 h with here | h
        · obtain rfl := Piece.slot.inj here
          exact (slotName?_eq_some_iff.1 found).imp_right List.IsPrefix.isInfix
        · exact later h
      · exact later ((List.mem_cons.1 h).resolve_left (by simp))

theorem written_infix_of_mem_pieces (h : .slot name ∈ pieces t) : isSlotName name = true ∧ written name <:+: t :=
  written_infix_of_mem_piecesAfter h

theorem leftovers_eq_nil (h : Closed t) : leftovers t = [] := by
  refine List.filter_eq_nil_iff.2 fun n hn found => ?_
  obtain ⟨p, hp, hslot⟩ := List.mem_filterMap.1 (List.contains_iff_mem.1 found)
  cases p with
  | plain c => exact absurd hslot (by simp)
  | slot name =>
    obtain rfl := Option.some.inj hslot
    exact h.absent hn (written_infix_of_mem_pieces hp).2

section Pieces

theorem piecesAfter_append (x t : Text) : piecesAfter x.length (x ++ t) = pieces t := by
  induction x with
  | nil => rfl
  | cons c x ih => exact ih

theorem pieces_written (hname : isSlotName name = true) (t : Text) :
    pieces (written name ++ t) = .slot name :: pieces t := by
  have here : slotName? (written name ++ t) = some name := slotName?_eq_some_iff.2 ⟨hname, List.prefix_append _ _⟩
  have rest := piecesAfter_append ('\x7b' :: name ++ ['\x7d']) t
  have count : ('\x7b' :: name ++ ['\x7d']).length = name.length + 2 := by simp
  rw [count] at rest
  change pieces ('$' :: (('\x7b' :: name ++ ['\x7d']) ++ t)) = _
  change slotName? ('$' :: (('\x7b' :: name ++ ['\x7d']) ++ t)) = _ at here
  rw [pieces, piecesAfter, here]
  simp only [rest]

theorem pieces_cons (h : slotName? (c :: t) = none) : pieces (c :: t) = .plain c :: pieces t := by
  rw [pieces, piecesAfter, h]
  rfl

theorem slotName?_of_ne (h : c ≠ '$') (t : Text) : slotName? (c :: t) = none := by
  unfold slotName?
  split
  · next heq => exact absurd (List.cons.inj heq).1 h
  · rfl

/-- A text whose start has no slot that reaches beyond it falls into pieces there. -/
theorem pieces_append (h : ∀ x name, x <:+ u → x ≠ [] → written name <+: x ++ w → isSlotName name = true → written name <+: x) :
    pieces (u ++ w) = pieces u ++ pieces w := by
  induction hn : u.length using Nat.strong_induction_on generalizing u with
  | _ n ih =>
    subst hn
    cases u with
    | nil => rfl
    | cons c r =>
      cases hslot : slotName? (c :: r ++ w) with
      | some name =>
        obtain ⟨hname, whole⟩ := slotName?_eq_some_iff.1 hslot
        obtain ⟨s, hs⟩ := h (c :: r) name (List.suffix_refl _) (by simp) whole hname
        have shorter : s.length < (c :: r).length := by
          rw [← hs]
          simp only [written, List.length_append, List.length_cons]
          omega
        have rest : pieces (s ++ w) = pieces s ++ pieces w :=
          ih s.length shorter (fun x name hx => h x name (hs ▸ hx.trans (List.suffix_append _ _))) rfl
        rw [← hs, List.append_assoc, pieces_written hname, pieces_written hname, rest, List.cons_append]
      | none =>
        have none_ : slotName? (c :: r) = none := by
          rw [Option.eq_none_iff_forall_ne_some] at hslot ⊢
          intro name here
          obtain ⟨hname, whole⟩ := slotName?_eq_some_iff.1 here
          exact hslot name (slotName?_eq_some_iff.2 ⟨hname, whole.trans (List.prefix_append _ _)⟩)
        have rest : pieces (r ++ w) = pieces r ++ pieces w :=
          ih r.length (by simp) (fun x name hx => h x name (hx.trans (List.suffix_cons c r))) rfl
        rw [List.cons_append] at hslot ⊢
        rw [pieces_cons hslot, pieces_cons none_, rest, List.cons_append]

end Pieces

/-- How many braces are open after a text, if none is closed in it that was not opened before. -/
def openAfter : Nat → Text → Option Nat
  | d, [] => some d
  | d, c :: r =>
    if c = '\x7b' then openAfter (d + 1) r
    else if c = '\x7d' then if d = 0 then none else openAfter (d - 1) r
    else openAfter d r

/-- A text whose braces match up. -/
def Balanced (t : Text) : Prop := openAfter 0 t = some 0

instance (t : Text) : Decidable (Balanced t) := inferInstanceAs (Decidable (_ = _))

theorem openAfter_append (d : Nat) (t u : Text) : openAfter d (t ++ u) = (openAfter d t).bind fun e => openAfter e u := by
  induction t generalizing d with
  | nil => rfl
  | cons c r ih =>
    simp only [List.cons_append, openAfter]
    split
    · exact ih (d + 1)
    · split
      · split
        · rfl
        · exact ih (d - 1)
      · exact ih d

theorem openAfter_of_plain (h : ∀ c ∈ t, c ≠ '\x7b' ∧ c ≠ '\x7d') (d : Nat) : openAfter d t = some d := by
  induction t with
  | nil => rfl
  | cons c r ih =>
    obtain ⟨ho, hc⟩ := h c List.mem_cons_self
    rw [openAfter, if_neg ho, if_neg hc]
    exact ih fun e he => h e (List.mem_cons_of_mem c he)

theorem not_mem_slotName (hname : isSlotName name = true) (hc : isNamePart c = false) : c ∉ name :=
  fun mem => absurd (isNamePart_of_mem hname mem) (by simp [hc])

theorem ne_brace_of_mem (hname : isSlotName name = true) (hc : c ∈ name) : c ≠ '\x7b' ∧ c ≠ '\x7d' := by
  constructor
  · rintro rfl
    exact not_mem_slotName hname (by decide) hc
  · rintro rfl
    exact not_mem_slotName hname (by decide) hc

section Expressions

theorem pieces_append_mark (part : isNamePart c = false) (opening : c ≠ '\x7b') (closing : c ≠ '\x7d') (u w : Text) :
    pieces (u ++ c :: w) = pieces u ++ pieces (c :: w) := by
  refine pieces_append fun x name hx hne whole hname => ?_
  rcases prefix_append_cons whole with within | ⟨z, hz⟩
  · exact within
  · cases x with
    | nil => exact absurd rfl hne
    | cons d x =>
      have inside : c ∈ '\x7b' :: name ++ ['\x7d'] := by
        have rest : '\x7b' :: name ++ ['\x7d'] = x ++ c :: z := (List.cons.inj hz).2
        rw [rest]
        exact List.mem_append_right x List.mem_cons_self
      have inName : c ∈ name := by simpa [opening, closing] using inside
      exact absurd inName (not_mem_slotName hname part)

theorem eq_of_append_brace {p z : Text} (hname : isSlotName name = true) (h : name ++ ['\x7d'] = p ++ '\x7d' :: z) :
    p = name := by
  rcases List.eq_nil_or_concat z with rfl | ⟨y, e, rfl⟩
  · exact (List.append_inj' h rfl).1.symm
  · have inside : name = p ++ '\x7d' :: y := by
      rw [List.concat_eq_append, ← List.cons_append, ← List.append_assoc] at h
      exact (List.append_inj' h rfl).1
    have brace : '\x7d' ∈ name := inside ▸ List.mem_append_right p List.mem_cons_self
    exact absurd brace (not_mem_slotName hname (by decide))

theorem openAfter_of_written {x z : Text} (hname : isSlotName name = true) (h : written name = x ++ '\x7d' :: z)
    (hne : x ≠ []) (d : Nat) : openAfter d x = some (d + 1) := by
  match x, hne with
  | [e], _ => exact absurd (List.cons.inj (List.cons.inj h).2).1 (by decide)
  | e :: o :: p, _ =>
    simp only [written, List.cons_append, List.cons.injEq] at h
    obtain ⟨rfl, rfl, h⟩ := h
    obtain rfl := eq_of_append_brace hname h
    rw [openAfter, if_neg (by decide), if_neg (by decide), openAfter, if_pos rfl]
    exact openAfter_of_plain (fun c hc => ne_brace_of_mem hname hc) (d + 1)

theorem slotName?_of_balanced (balanced : Balanced t) (other : ¬ isSlotName t = true) (v : Text) :
    slotName? ('$' :: '\x7b' :: (t ++ '\x7d' :: v)) = none := by
  rw [Option.eq_none_iff_forall_ne_some]
  intro name here
  obtain ⟨hname, whole⟩ := slotName?_eq_some_iff.1 here
  have inner : name ++ ['\x7d'] <+: t ++ '\x7d' :: v := by
    simpa only [written, List.cons_append, List.cons_prefix_cons, true_and] using whole
  rcases prefix_append_cons inner with ⟨s, rfl⟩ | ⟨z, hz⟩
  · unfold Balanced at balanced
    have closes := openAfter_of_plain (fun c hc => ne_brace_of_mem hname hc) 0
    rw [List.append_assoc, openAfter_append, closes] at balanced
    exact absurd balanced (by simp [openAfter])
  · exact other (eq_of_append_brace hname hz ▸ hname)

theorem pieces_append_brace (balanced : Balanced t) (v : Text) :
    pieces (t ++ '\x7d' :: v) = pieces t ++ pieces ('\x7d' :: v) := by
  refine pieces_append fun x name hx hne whole hname => ?_
  rcases prefix_append_cons whole with within | ⟨z, hz⟩
  · exact within
  · obtain ⟨y, rfl⟩ := hx
    unfold Balanced at balanced
    rw [openAfter_append] at balanced
    cases hy : openAfter 0 y with
    | none => exact absurd balanced (by simp [hy])
    | some d => exact absurd balanced (by simp [hy, openAfter_of_written hname hz hne])

theorem substitute_of_not_mem (h : '$' ∉ t) (context : Context) : substitute t context = t := by
  induction t with
  | nil => rfl
  | cons c r ih =>
    obtain ⟨hc, hr⟩ := not_or.1 (mt List.mem_cons.2 h)
    rw [substitute, pieces_cons (slotName?_of_ne (Ne.symm hc) r)]
    exact congrArg (c :: ·) (ih hr)

theorem substitute_slot {value : Text} (hname : isSlotName name = true) (hv : Entries.get? name context = some value)
    (u v : Text) : substitute (u ++ (written name ++ v)) context = substitute u context ++ (value ++ substitute v context) := by
  have parted := pieces_append_mark (c := '$') (by decide) (by decide) (by decide) u ('\x7b' :: name ++ ['\x7d'] ++ v)
  change pieces (u ++ (written name ++ v)) = pieces u ++ pieces (written name ++ v) at parted
  rw [substitute, parted, pieces_written hname]
  simp [substitute, Piece.fill, hv]

/-- An expression that is no slot with a value, wherever it stands, is kept, and what is inside of it is filled. -/
theorem substitute_expression (balanced : Balanced t) (novalue : Entries.get? t context = none) (u v : Text) :
    substitute (u ++ (written t ++ v)) context =
      substitute u context ++ (written (substitute t context) ++ substitute v context) := by
  have parted := pieces_append_mark (c := '$') (by decide) (by decide) (by decide) u ('\x7b' :: t ++ ['\x7d'] ++ v)
  change pieces (u ++ (written t ++ v)) = pieces u ++ pieces (written t ++ v) at parted
  rw [substitute, parted, List.flatMap_append]
  refine congrArg (substitute u context ++ ·) ?_
  by_cases hname : isSlotName t = true
  · have plain : '$' ∉ t := not_mem_slotName hname (by decide)
    rw [pieces_written hname, substitute_of_not_mem plain]
    simp [substitute, Piece.fill, novalue]
  · have opens := slotName?_of_balanced balanced hname v
    have whole : written t ++ v = '$' :: '\x7b' :: (t ++ '\x7d' :: v) := by simp [written]
    rw [whole, pieces_cons opens, pieces_cons (slotName?_of_ne (by decide) _), pieces_append_brace balanced,
      pieces_cons (slotName?_of_ne (by decide) _)]
    simp [substitute, Piece.fill, written]

end Expressions

end EntityScaffold.Template
