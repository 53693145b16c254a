import EntityScaffold.Template.Substitution
import EntityScaffold.Proofs.Text.Search
import Mathlib.Data.List.Infix
import Mathlib.Data.List.TakeWhile

/-
Templates by their pieces. When slots take only characters of a class, the other characters of a filled template, its marks,
are known beforehand; where two templates cannot overlap by their starts and their marks, no filled ones do.
-/

namespace EntityScaffold.Template

open Text (Straddles occurrences)

variable {inSlot : Char → Bool} {context other : Context}

/-- The pieces with their slots filled. -/
def fill (context : Context) (ps : List Piece) : Text := ps.flatMap (Piece.fill context)

@[simp] theorem fill_nil (context : Context) : fill context [] = [] := rfl

@[simp] theorem fill_cons (context : Context) (p : Piece) (ps : List Piece) :
    fill context (p :: ps) = p.fill context ++ fill context ps := rfl

@[simp] theorem fill_append (context : Context) (ps qs : List Piece) :
    fill context (ps ++ qs) = fill context ps ++ fill context qs := by
  simp [fill]

theorem substitute_eq_fill (template : Text) (context : Context) :
    substitute template context = fill context (pieces template) := rfl

def plain (t : Text) : List Piece := t.map .plain

@[simp] theorem fill_plain (context : Context) (t : Text) : fill context (plain t) = t := by
  induction t with
  | nil => rfl
  | cons c r ih => simpa [plain, Piece.fill] using ih

/-- Every slot of the pieces has a value, made of characters of the class. -/
def Fills (inSlot : Char → Bool) (context : Context) (ps : List Piece) : Prop :=
  ∀ name, .slot name ∈ ps → ∃ v, Entries.get? name context = some v ∧ ∀ c ∈ v, inSlot c = true

theorem fills_plain (inSlot : Char → Bool) (context : Context) (t : Text) : Fills inSlot context (plain t) := by
  intro name h
  simp [plain] at h

theorem Fills.mono {ps qs : List Piece} (h : Fills inSlot context ps) (sub : qs ⊆ ps) : Fills inSlot context qs :=
  fun name hm => h name (sub hm)

/-- The character of a piece that no slot could take. -/
def Piece.mark? (inSlot : Char → Bool) : Piece → Option Char
  | .plain c => if inSlot c then none else some c
  | .slot _ => none

/-- The characters of pieces that no slot could take. -/
def marks (inSlot : Char → Bool) (ps : List Piece) : Text := ps.filterMap (Piece.mark? inSlot)

theorem filter_fill {ps : List Piece} (h : Fills inSlot context ps) :
    (fill context ps).filter (fun c => !inSlot c) = marks inSlot ps := by
  induction ps with
  | nil => rfl
  | cons p ps ih =>
    rw [fill_cons, List.filter_append, ih (h.mono (List.subset_cons_self p ps))]
    cases p with
    | plain c => cases hc : inSlot c <;> simp [Piece.fill, marks, Piece.mark?, hc]
    | slot name =>
      obtain ⟨v, hv, word⟩ := h name List.mem_cons_self
      have nothing : v.filter (fun c => !inSlot c) = [] := List.filter_eq_nil_iff.2 fun c hc => by simp [word c hc]
      have hfill : (Piece.slot name).fill context = v := by simp [Piece.fill, hv]
      rw [hfill, nothing]
      rfl

theorem mem_of_mem_fill {ps : List Piece} (h : Fills inSlot context ps) {c : Char} (hc : c ∈ fill context ps) :
    inSlot c = true ∨ .plain c ∈ ps := by
  obtain ⟨p, hp, hc⟩ := List.mem_flatMap.1 hc
  cases p with
  | plain d =>
    obtain rfl := List.mem_singleton.1 hc
    exact Or.inr hp
  | slot name =>
    obtain ⟨v, hv, word⟩ := h name hp
    simp only [Piece.fill, hv, Option.getD_some] at hc
    exact Or.inl (word c hc)

theorem not_infix_of_marks {n l : List Piece} (hn : Fills inSlot context n) (hl : Fills inSlot other l)
    (h : Text.has (marks inSlot l) (marks inSlot n) = false) : ¬ fill context n <:+: fill other l := by
  intro hi
  have := hi.filter fun c => !inSlot c
  rw [filter_fill hn, filter_fill hl, ← Text.has_iff, h] at this
  exact absurd this (by simp)

/-- The characters up to the first slot. -/
def lead : List Piece → Text
  | .plain c :: ps => c :: lead ps
  | _ => []

/-- The pieces from the first slot on. -/
def afterLead : List Piece → List Piece
  | .plain _ :: ps => afterLead ps
  | ps => ps

theorem fill_eq_lead (context : Context) (ps : List Piece) :
    fill context ps = lead ps ++ fill context (afterLead ps) := by
  fun_induction lead ps with
  | case1 c ps ih => simp [Piece.fill, afterLead, ih]
  | case2 ps h =>
    cases ps with
    | nil => rfl
    | cons p ps =>
      cases p with
      | plain c => exact absurd rfl (h c ps)
      | slot name => rfl

theorem afterLead_subset (ps : List Piece) : afterLead ps ⊆ ps := by
  fun_induction afterLead ps with
  | case1 c ps ih => exact List.Subset.trans ih (List.subset_cons_self _ ps)
  | case2 => exact List.Subset.refl _

/-- Whether one text starts with the other. -/
def compatible (s t : Text) : Bool := s.isPrefixOf t || t.isPrefixOf s

theorem compatible_iff {s t : Text} : compatible s t = true ↔ s <+: t ∨ t <+: s := by
  simp [compatible, List.isPrefixOf_iff_prefix]

theorem compatible_of_prefix {s t u : Text} (hs : s <+: u) (ht : t <+: u) : compatible s t = true :=
  compatible_iff.2 (List.prefix_or_prefix_of_prefix hs ht)

/-- Whether an end of the first pieces, when they are filled, may be a start of the second or of a text that starts with them. -/
def meets (inSlot : Char → Bool) (n q : List Piece) : Bool :=
  (lead n).tail.tails.any (fun u => !u.isEmpty && compatible u (lead q) &&
    compatible (marks inSlot (plain u ++ afterLead n)) (marks inSlot q)) ||
  (marks inSlot (afterLead n)).tails.any fun s => !s.isEmpty && compatible s (marks inSlot q)

/-- Whether the pieces from the first slot on end with a mark, if there are any. -/
def endsMarked (inSlot : Char → Bool) (ps : List Piece) : Bool :=
  match (afterLead ps).getLast? with
  | some p => (p.mark? inSlot).isSome
  | none => true

theorem filter_ne_nil_of_suffix {ps : List Piece} (hend : endsMarked inSlot ps = true) {t : Text} (ht : t ≠ [])
    (hs : t <:+ fill context (afterLead ps)) : t.filter (fun c => !inSlot c) ≠ [] := by
  unfold endsMarked at hend
  rcases List.eq_nil_or_concat (afterLead ps) with hnil | ⟨qs, p, hp⟩
  · exact absurd (by simpa [hnil] using hs) ht
  · cases p with
    | slot name => simp [hp, Piece.mark?] at hend
    | plain c =>
      have hc : inSlot c = false := by simpa [hp, Piece.mark?] using hend
      obtain ⟨a, ha⟩ := hs
      obtain ⟨t, d, rfl⟩ : ∃ t' d, t = t' ++ [d] := ⟨t.dropLast, t.getLast ht, (List.dropLast_concat_getLast ht).symm⟩
      have hlast : (a ++ t) ++ [d] = fill context qs ++ [c] := by simpa [hp, Piece.fill] using ha
      obtain rfl : d = c := by simpa using (List.append_inj' hlast rfl).2
      simp [hc]

theorem not_straddles_of_meets {n q : List Piece} (hn : Fills inSlot context n) (hq : Fills inSlot other q)
    (hend : endsMarked inSlot n = true) (h : meets inSlot n q = false) (a b : Text) :
    ¬ Straddles (fill context n) a (fill other q ++ b) := by
  rintro ⟨s, t, hs, ht, he, -, htb⟩
  simp only [meets, Bool.or_eq_false_iff, List.any_eq_false, List.mem_tails, Bool.and_eq_true, not_and,
    Bool.not_eq_true', List.isEmpty_eq_false_iff, Bool.not_eq_true, and_imp] at h
  have hv := hn.mono (afterLead_subset n)
  have marked : compatible (t.filter fun c => !inSlot c) (marks inSlot q) = true := by
    rw [← filter_fill hq]
    rcases List.prefix_or_prefix_of_prefix htb (List.prefix_append (fill other q) b) with hp | hp
    · exact compatible_iff.2 (Or.inl (hp.filter _))
    · exact compatible_iff.2 (Or.inr (hp.filter _))
  have inMarks (ht' : t <:+ fill context (afterLead n)) : False := by
    have hsub := ht'.filter fun c => !inSlot c
    rw [filter_fill hv] at hsub
    exact absurd marked (by simp [h.2 _ hsub (filter_ne_nil_of_suffix hend ht ht')])
  rw [fill_eq_lead context n] at he
  rcases List.append_eq_append_iff.1 he with ⟨u, hsu, ht'⟩ | ⟨u, hlead, htu⟩
  · exact inMarks ⟨u, ht'.symm⟩
  · by_cases hu : u = []
    · exact inMarks (by simp [htu, hu])
    · obtain ⟨d, s, rfl⟩ := List.exists_cons_of_ne_nil hs
      have inLead : u <:+ (lead n).tail := ⟨s, by simp [hlead]⟩
      have compat : compatible u (lead q) = true := by
        refine compatible_of_prefix (u := fill other q ++ b) ?_ ?_
        · exact (List.prefix_append u _).trans (htu ▸ htb)
        · rw [fill_eq_lead other q, List.append_assoc]
          exact List.prefix_append (lead q) _
      have filled : t = fill context (plain u ++ afterLead n) := by rw [fill_append, fill_plain, htu]
      have hfills : Fills inSlot context (plain u ++ afterLead n) := by
        intro name hm
        rcases List.mem_append.1 hm with hm | hm
        · exact fills_plain inSlot context u name hm
        · exact hv name hm
      rw [filled, filter_fill hfills] at marked
      exact absurd marked (by simp [h.1 u inLead hu compat])

theorem not_mem_fill {ps : List Piece} (h : Fills inSlot context ps) {c : Char} (hc : inSlot c = false)
    (hp : .plain c ∉ ps) : c ∉ fill context ps := by
  intro hm
  rcases mem_of_mem_fill h hm with hs | hm
  · exact absurd hs (by simp [hc])
  · exact hp hm

theorem occurrences_fill_framed {c d : Char} {u w x y z : List Piece} (hc : inSlot c = false) (hd : inSlot d = false)
    (hn : Fills inSlot context (u ++ w)) (hl : Fills inSlot other (x ++ (z ++ .plain d :: y)))
    (hcn : .plain c ∉ u) (hcl : .plain c ∉ x ++ (z ++ .plain d :: y)) (hdn : .plain d ∉ w) (hdl : .plain d ∉ z) :
    occurrences (fill context (u ++ .plain c :: (w ++ [.plain d]))) (fill other (x ++ .plain c :: (z ++ .plain d :: y))) =
      if fill context u <:+ fill other x ∧ fill context w = fill other z then 1 else 0 := by
  have hz : Fills inSlot other (z ++ .plain d :: y) := hl.mono (List.subset_append_right x _)
  have hcx := not_mem_fill (hl.mono (List.subset_append_left x _)) hc fun h => hcl (List.mem_append_left _ h)
  have hcz := not_mem_fill hz hc fun h => hcl (List.mem_append_right x h)
  have framed := Text.occurrences_framed (y := fill other y)
    (not_mem_fill (hn.mono (List.subset_append_left u w)) hc hcn) hcx (by simpa [Piece.fill] using hcz)
    (not_mem_fill (hn.mono (List.subset_append_right u w)) hd hdn)
    (not_mem_fill (hz.mono (List.subset_append_left z _)) hd hdl)
  simpa [Piece.fill] using framed

def pieceLines : List Piece → List (List Piece)
  | [] => []
  | p :: ps =>
    if p = .plain '\n' then [] :: pieceLines ps
    else match pieceLines ps with
      | [] => [[p]]
      | l :: ls => (p :: l) :: ls

/-- The characters before the first mark, when they are plain. -/
def opening? (inSlot : Char → Bool) (ps : List Piece) : Option Text :=
  if (lead ps).all inSlot then none else some ((lead ps).takeWhile inSlot)

theorem takeWhile_fill {ps : List Piece} {u : Text} (h : opening? inSlot ps = some u) (context : Context) (t : Text) :
    (fill context ps ++ t).takeWhile inSlot = u := by
  unfold opening? at h
  split at h
  · contradiction
  · next marked =>
    obtain rfl := Option.some.inj h
    have stops : ((lead ps).takeWhile inSlot).length ≠ (lead ps).length := by
      intro whole
      have all := (List.takeWhile_prefix inSlot (l := lead ps)).eq_of_length whole
      exact marked (List.all_eq_true.2 (List.takeWhile_eq_self_iff.1 all))
    rw [fill_eq_lead, List.append_assoc, List.takeWhile_append, if_neg stops]

/-- Whether pieces, however they are filled, can be a part of others only when they are all of them: they have marks that the
others lack; or both have the same marks, open alike, and the others end with a mark. -/
def standsAlone (inSlot : Char → Bool) (n l : List Piece) : Bool :=
  !Text.has (marks inSlot l) (marks inSlot n) ||
    (marks inSlot n = marks inSlot l && (opening? inSlot n).isSome && opening? inSlot n = opening? inSlot l &&
      l.getLast?.any fun p => (p.mark? inSlot).isSome)

/-- Filled pieces that have all the marks of a text leave it none outside of them. -/
theorem inSlot_of_same_marks {n l : List Piece} {a b : Text} (same : marks inSlot n = marks inSlot l)
    (hn : Fills inSlot context n) (hl : Fills inSlot other l) (whole : a ++ fill context n ++ b = fill other l) :
    (∀ c ∈ a, inSlot c = true) ∧ ∀ c ∈ b, inSlot c = true := by
  have filtered := congrArg (List.filter fun c => !inSlot c) whole
  rw [List.filter_append, List.filter_append, filter_fill hn, filter_fill hl, same] at filtered
  have lengths := congrArg List.length filtered
  simp only [List.length_append] at lengths
  have none : a.filter (fun c => !inSlot c) = [] ∧ b.filter (fun c => !inSlot c) = [] :=
    ⟨List.length_eq_zero_iff.1 (by omega), List.length_eq_zero_iff.1 (by omega)⟩
  simpa [List.filter_eq_nil_iff] using none

theorem fill_eq_of_inside {n l : List Piece} (h : standsAlone inSlot n l = true) (hn : Fills inSlot context n)
    (hl : Fills inSlot other l) (inside : fill context n <:+: fill other l) : fill context n = fill other l := by
  simp only [standsAlone, Bool.or_eq_true, Bool.not_eq_true', Bool.and_eq_true, decide_eq_true_eq] at h
  rcases h with missing | ⟨⟨⟨same, opens⟩, alike⟩, ends⟩
  · exact absurd inside (not_infix_of_marks hn hl missing)
  obtain ⟨a, b, whole⟩ := inside
  obtain ⟨u, hu⟩ := Option.isSome_iff_exists.1 opens
  have outside := inSlot_of_same_marks same hn hl whole
  have before : a = [] := by
    have starts := congrArg (List.takeWhile inSlot) whole
    have first := takeWhile_fill (alike ▸ hu) other []
    rw [List.append_nil] at first
    rw [List.append_assoc, List.takeWhile_append_of_pos outside.1, takeWhile_fill hu context b, first] at starts
    simpa using starts
  have after : b = [] := by
    rcases List.eq_nil_or_concat b with rfl | ⟨b, c, rfl⟩
    · rfl
    · have hne : l ≠ [] := fun empty => by simp [empty] at ends
      obtain ⟨m, p, rfl⟩ : ∃ m p, l = m ++ [p] := ⟨_, _, (List.dropLast_concat_getLast hne).symm⟩
      cases p with
      | slot name => simp [Piece.mark?] at ends
      | plain d =>
        have mark : inSlot d = false := by simpa [Piece.mark?] using ends
        have last : (a ++ fill context n ++ b) ++ [c] = fill other m ++ [d] := by simpa [Piece.fill] using whole
        obtain rfl : c = d := by simpa using (List.append_inj' last rfl).2
        exact absurd (outside.2 c (by simp)) (by simp [mark])
  rw [← whole, before, after, List.nil_append, List.append_nil]

end EntityScaffold.Template
