import EntityScaffold.SharedFile.Target
import EntityScaffold.Proofs.Naming
import EntityScaffold.Proofs.SharedFile.Growth
import EntityScaffold.Proofs.Template.Pieces

/-
The built-in shared files: their snippets are blocks of neat lines, and none of the texts that are looked for in a
file, the markers, the anchors, the tags of sections and the lines themselves, can be made or broken where a block meets
other text.
-/

namespace EntityScaffold.SharedFile

open Naming (Identifier AddressPrefix isWordChar isAddressChar)
open Template (Context Piece Fills fill plain pieces pieceLines marks meets endsMarked)
open Text (isBlank isLineEnd ended occurrences occurrencesIn Straddles)

variable {inSlot : Char → Bool} {context other : Context} {i : Insertion} {n l : List Piece}

/-- The lines of an insertion's snippet, in pieces. -/
def Insertion.pieceBlock (i : Insertion) : List (List Piece) := pieceLines (pieces i.snippet)

/-- The lines that an insertion brings, with the values of a context. -/
def Insertion.block (context : Context) (i : Insertion) : List Text := i.pieceBlock.map (fill context)

def isVisible : Piece → Bool
  | .plain c => !isBlank c
  | .slot _ => false

def isNeatLine (ps : List Piece) : Bool :=
  ps.head?.any isVisible && ps.getLast?.any isVisible && ps.all fun
    | .plain c => !isLineEnd c
    | .slot _ => true

/-- Whether an insertion's anchor is a text without slots, and its snippet a block of neat lines. -/
def Insertion.isRegular (i : Insertion) : Bool :=
  pieces i.anchor = plain i.anchor && !i.anchor.isEmpty && !i.anchor.contains '\n' && !i.pieceBlock.isEmpty &&
  i.pieceBlock.all isNeatLine && i.pieceBlock.flatMap (· ++ [.plain '\n']) = pieces i.snippet &&
  i.sectionName.all fun name => !name.contains '\n'

/-- Whether a needle is neither broken by an insertion's anchor nor made where its block meets other text. -/
def Insertion.spares (inSlot : Char → Bool) (n : List Piece) (i : Insertion) : Bool :=
  n.head?.any isVisible && endsMarked inSlot n && !meets inSlot n (plain i.anchor) &&
  i.pieceBlock.head?.all fun l => !meets inSlot n l

/-- Whether the marks of a needle are missing in an insertion's block. -/
def Insertion.lacks (inSlot : Char → Bool) (n : List Piece) (i : Insertion) : Bool :=
  i.pieceBlock.all fun l => !Text.has (marks inSlot l) (marks inSlot n)

theorem isBlank_of_isLineEnd {c : Char} (h : isLineEnd c = true) : isBlank c = true := by
  simp only [isLineEnd, isBlank, Bool.or_eq_true, Bool.and_eq_true, decide_eq_true_eq] at h ⊢
  omega

theorem starts_fill (hn : n.head?.any isVisible = true) : ∃ c r, fill context n = c :: r ∧ isBlank c = false := by
  cases n with
  | nil => simp at hn
  | cons p n =>
    cases p with
    | slot name => simp [isVisible] at hn
    | plain c => exact ⟨c, fill context n, rfl, by simpa [isVisible] using hn⟩

theorem ends_fill (hn : n.getLast?.any isVisible = true) : ∃ r c, fill context n = r ++ [c] ∧ isBlank c = false := by
  rcases List.eq_nil_or_concat n with rfl | ⟨m, p, rfl⟩
  · simp at hn
  · cases p with
    | slot name => simp [isVisible] at hn
    | plain c => exact ⟨fill context m, c, by simp [Template.Piece.fill], by simpa [isVisible] using hn⟩

theorem isNeat_fill (hslot : ∀ c, inSlot c = true → isBlank c = false) (hf : Fills inSlot context l)
    (h : isNeatLine l = true) : IsNeat (fill context l) := by
  simp only [isNeatLine, Bool.and_eq_true, List.all_eq_true] at h
  obtain ⟨⟨hstart, hend⟩, hline⟩ := h
  refine ⟨?_, starts_fill hstart, ends_fill hend⟩
  intro c hc
  rcases Template.mem_of_mem_fill hf hc with hs | hp
  · by_contra he
    exact absurd (isBlank_of_isLineEnd (by simpa using he)) (by simp [hslot c hs])
  · simpa using hline _ hp

theorem pieceBlock_subset (h : i.isRegular = true) (hl : l ∈ i.pieceBlock) : l ⊆ pieces i.snippet := by
  simp only [Insertion.isRegular, Bool.and_eq_true, decide_eq_true_eq] at h
  intro p hp
  rw [← h.1.2]
  exact List.mem_flatMap.2 ⟨l, hl, List.mem_append_left _ hp⟩

theorem renders_of_isRegular (hslot : ∀ c, inSlot c = true → isBlank c = false) (h : i.isRegular = true)
    (hf : Fills inSlot context (pieces i.snippet)) : i.Renders context i.anchor (i.block context) := by
  have sub : ∀ l ∈ i.pieceBlock, l ⊆ pieces i.snippet := fun l hl => pieceBlock_subset h hl
  simp only [Insertion.isRegular, Bool.and_eq_true, decide_eq_true_eq, List.all_eq_true, Bool.not_eq_true',
    List.isEmpty_eq_false_iff] at h
  obtain ⟨⟨⟨⟨⟨⟨hanchor, hne⟩, hline⟩, hblock⟩, hneat⟩, hjoin⟩, hname⟩ := h
  constructor
  · change fill context (pieces i.anchor) = i.anchor
    rw [hanchor, Template.fill_plain]
  · exact hne
  · simpa using hline
  · change fill context (pieces i.snippet) = ended (i.block context)
    rw [← hjoin, Insertion.block, ended, List.flatMap_map]
    simp [fill, List.flatMap_assoc, Template.Piece.fill]
  · simpa [Insertion.block] using hblock
  · intro m hm
    obtain ⟨l, hl, rfl⟩ := List.mem_map.1 hm
    exact isNeat_fill hslot (hf.mono (sub l hl)) (hneat l hl)
  · intro name hn
    simpa [hn] using hname

theorem isClear_of_spares (h : i.spares inSlot n = true) (hregular : i.isRegular = true) (hn : Fills inSlot context n)
    (hf : Fills inSlot other (pieces i.snippet)) : IsClear (fill context n) i.anchor (i.block other) := by
  simp only [Insertion.spares, Bool.and_eq_true, Bool.not_eq_true'] at h
  obtain ⟨⟨⟨hstart, hend⟩, hanchor⟩, hblock⟩ := h
  refine ⟨starts_fill hstart, ?_, ?_⟩
  · intro start finish
    have := Template.not_straddles_of_meets hn (Template.fills_plain inSlot other i.anchor) hend hanchor start finish
    rwa [Template.fill_plain] at this
  · intro start m hm
    rw [Insertion.block, List.head?_map] at hm
    obtain ⟨l, hl, rfl⟩ := Option.map_eq_some_iff.1 hm
    have hmem := List.mem_of_mem_head? hl
    have hlf := hf.mono (pieceBlock_subset hregular hmem)
    have := Template.not_straddles_of_meets hn hlf hend (by simpa [hl] using hblock) start []
    rwa [List.append_nil] at this

theorem occurrencesIn_of_lacks (h : i.lacks inSlot n = true) (hregular : i.isRegular = true)
    (hv : n.head?.any isVisible = true) (hn : Fills inSlot context n) (hf : Fills inSlot other (pieces i.snippet)) :
    occurrencesIn (fill context n) (i.block other) = 0 := by
  obtain ⟨c, r, hc, -⟩ := @starts_fill context n hv
  have hne : fill context n ≠ [] := by simp [hc]
  by_contra hpos
  obtain ⟨m, hm, hi⟩ := (Text.occurrencesIn_pos_iff hne).1 (Nat.pos_of_ne_zero hpos)
  obtain ⟨l, hl, rfl⟩ := List.mem_map.1 hm
  have hlf := hf.mono (pieceBlock_subset hregular hl)
  have := List.all_eq_true.1 h l hl
  exact Template.not_infix_of_marks hn hlf (by simpa using this) hi

/-- What begins every tag that begins a section. -/
def beginTag : Text := "// crudgen:begin".toList

/-- The texts by which insertions find their places: the anchors and the tags of the sections. -/
def Target.fixtures (t : Target) : List Text :=
  beginTag :: (t.insertions.map (·.anchor) ++ t.insertions.filterMap fun i => i.sectionName.map endMarker)

/-- The name slots, which take the characters of a word. -/
def wordSlots : List Text := ["ModelName".toList, "modelName".toList, "pluralModelName".toList]

/-- All slots of the built-in snippets, which take the characters of an address. -/
def addressSlots : List Text := "apiPrefix".toList :: wordSlots

/-- Whether pieces have no slots but those of the given names. -/
def hasSlotsAmong (names : List Text) (ps : List Piece) : Bool :=
  ps.all fun
    | .plain _ => true
    | .slot name => names.contains name

/-- A context that gives an entity's names, and the prefix of its addresses, whatever else it gives. -/
structure Names (entity apiPrefix : Text) (c : Context) : Prop where
  full : Entries.get? "ModelName".toList c = some entity
  lower : Entries.get? "modelName".toList c = some (Naming.lowerCamel entity)
  plural : Entries.get? "pluralModelName".toList c = some (Naming.plural (Naming.lowerCamel entity))
  apiPrefix : Entries.get? "apiPrefix".toList c = some apiPrefix

theorem names_nameContext (entity apiPrefix : Text) (rest : Context) :
    Names entity apiPrefix (Template.nameContext entity apiPrefix ++ rest) := ⟨rfl, rfl, rfl, rfl⟩

theorem names_entityContext (entity apiPrefix : Text) :
    Names entity (Text.trimEnd (· = '/') apiPrefix) (entityContext entity apiPrefix) := ⟨rfl, rfl, rfl, rfl⟩

theorem Names.fills {e : Identifier} {apiPrefix : Text} {ps : List Piece} (h : Names e.name apiPrefix context)
    (slots : hasSlotsAmong wordSlots ps = true) : Fills isWordChar context ps := by
  intro name hm
  have hname : name ∈ wordSlots := by simpa using List.all_eq_true.1 slots _ hm
  simp only [wordSlots, List.mem_cons, List.not_mem_nil, or_false] at hname
  rcases hname with rfl | rfl | rfl
  · exact ⟨e.name, h.full, List.all_eq_true.1 e.word⟩
  · exact ⟨Naming.lowerCamel e.name, h.lower, fun c hc => Naming.isWordChar_of_mem_lowerCamel e hc⟩
  · exact ⟨Naming.plural (Naming.lowerCamel e.name), h.plural, fun c hc => Naming.isWordChar_of_mem_plural e hc⟩

theorem fills_wordSlots (e : Identifier) (p : AddressPrefix) {ps : List Piece} (h : hasSlotsAmong wordSlots ps = true) :
    Fills isWordChar (entityContext e.name p.text) ps := (names_entityContext e.name p.text).fills h

theorem fills_addressSlots (e : Identifier) (p : AddressPrefix) {ps : List Piece}
    (h : hasSlotsAmong addressSlots ps = true) : Fills isAddressChar (entityContext e.name p.text) ps := by
  intro name hm
  have hname : name ∈ addressSlots := by simpa using List.all_eq_true.1 h _ hm
  simp only [addressSlots, List.mem_cons] at hname
  rcases hname with rfl | hword
  · exact ⟨Text.trimEnd (· = '/') p.text, rfl, fun c hc => Naming.isAddressChar_of_mem_trimEnd p hc⟩
  · have single : hasSlotsAmong wordSlots [.slot name] = true := by simpa [hasSlotsAmong] using hword
    obtain ⟨v, hv, word⟩ := fills_wordSlots e p single name List.mem_cons_self
    exact ⟨v, hv, fun c hc => Naming.isAddressChar_of_isWordChar (word c hc)⟩

/-- What can be read off a shared file's insertions alone, when the slots of their templates take characters of a class. -/
structure Target.IsSound (names : List Text) (inSlot : Char → Bool) (t : Target) : Prop where
  named : hasSlotsAmong names (pieces t.existenceMarker) = true ∧
    ∀ i ∈ t.insertions, hasSlotsAmong names (pieces i.snippet) = true
  regular : ∀ i ∈ t.insertions, i.isRegular = true
  neat : isNeatLine (pieces t.existenceMarker) = true
  marker : ∀ i ∈ t.insertions, i.spares inSlot (pieces t.existenceMarker) = true
  fixtures : ∀ n ∈ t.fixtures, ∀ i ∈ t.insertions, i.spares inSlot (plain n) = true ∧ i.lacks inSlot (plain n) = true
  blocks : ∀ i ∈ t.insertions, ∀ l ∈ i.pieceBlock, endsMarked inSlot l = true ∧
    ∀ j ∈ t.insertions, meets inSlot l (plain j.anchor) = false

theorem registry_isSound : registry.IsSound wordSlots isWordChar :=
  ⟨by decide +kernel, by decide +kernel, by decide +kernel, by decide +kernel, by decide +kernel, by decide +kernel⟩

theorem router_isSound : router.IsSound addressSlots isAddressChar :=
  ⟨by decide +kernel, by decide +kernel, by decide +kernel, by decide +kernel, by decide +kernel, by decide +kernel⟩

theorem documentation_isSound : documentation.IsSound wordSlots isWordChar :=
  ⟨by decide +kernel, by decide +kernel, by decide +kernel, by decide +kernel, by decide +kernel, by decide +kernel⟩

/-- The text that shows an entity to be registered. -/
def Target.markerOf (t : Target) (p : AddressPrefix) (e : Identifier) : Text :=
  Template.substitute t.existenceMarker (entityContext e.name p.text)

/-- The lines that an insertion brings for an entity. -/
def Insertion.linesOf (p : AddressPrefix) (e : Identifier) (i : Insertion) : List Text :=
  i.block (entityContext e.name p.text)

/-- A text with one slot in it. -/
def around (before : Text) (name : Text) (after : Text) : List Piece := plain before ++ .slot name :: plain after

/-- A marker whose words stand between two characters that no slot takes is found once in a line of its own. -/
theorem occurrences_own {t : Target} {p : AddressPrefix} {c d : Char} {u : Text} {w x y : List Piece}
    (marker : pieces t.existenceMarker = plain u ++ .plain c :: (w ++ [.plain d]))
    (hc : isWordChar c = false) (hd : isWordChar d = false) (hw : hasSlotsAmong wordSlots (plain u ++ w) = true)
    (hl : hasSlotsAmong wordSlots (x ++ plain u ++ (w ++ .plain d :: y)) = true) (hcu : .plain c ∉ plain u)
    (hcl : .plain c ∉ x ++ plain u ++ (w ++ .plain d :: y)) (hdw : .plain d ∉ w) (e f : Identifier) :
    occurrences (t.markerOf p f)
      (fill (entityContext e.name p.text) (x ++ plain u ++ .plain c :: (w ++ .plain d :: y))) =
      if t.markerOf p f = t.markerOf p e then 1 else 0 := by
  rw [Target.markerOf, Target.markerOf, Template.substitute_eq_fill, Template.substitute_eq_fill, marker,
    Template.occurrences_fill_framed hc hd (fills_wordSlots f p hw) (fills_wordSlots e p hl) hcu hcl hdw hdw]
  simp [Template.Piece.fill]

theorem occurrences_foreign {t : Target} {p : AddressPrefix} {c d : Char} {u w x y z : List Piece}
    (marker : pieces t.existenceMarker = u ++ .plain c :: (w ++ [.plain d]))
    (hc : isWordChar c = false) (hd : isWordChar d = false) (hw : hasSlotsAmong wordSlots (u ++ w) = true)
    (hl : hasSlotsAmong wordSlots (x ++ (z ++ .plain d :: y)) = true) (hcu : .plain c ∉ u)
    (hcl : .plain c ∉ x ++ (z ++ .plain d :: y)) (hdw : .plain d ∉ w) (hdz : .plain d ∉ z)
    (words : ∀ context other : Context, fill context w ≠ fill other z) (e f : Identifier) :
    occurrences (t.markerOf p f) (fill (entityContext e.name p.text) (x ++ .plain c :: (z ++ .plain d :: y))) = 0 := by
  rw [Target.markerOf, Template.substitute_eq_fill, marker,
    Template.occurrences_fill_framed hc hd (fills_wordSlots f p hw) (fills_wordSlots e p hl) hcu hcl hdw hdz]
  exact if_neg fun hm => words _ _ hm.2

theorem fill_around (context : Context) (before name after : Text) :
    fill context (around before name after) = before ++ (Template.Piece.slot name).fill context ++ after := by
  simp [around]

theorem fill_around_ne_of_after {a b : Text} (hab : ¬ a <:+ b) (hba : ¬ b <:+ a) (before before' name name' : Text) :
    fill context (around before name a) ≠ fill other (around before' name' b) := by
  intro he
  rw [fill_around, fill_around] at he
  rcases List.suffix_or_suffix_of_suffix (he ▸ List.suffix_append _ a) (List.suffix_append _ b) with hs | hs
  · exact hab hs
  · exact hba hs

theorem fill_around_ne_of_before {a b : Text} (hab : ¬ a <+: b) (hba : ¬ b <+: a) (name name' after after' : Text) :
    fill context (around a name after) ≠ fill other (around b name' after') := by
  intro he
  rw [fill_around, fill_around, List.append_assoc, List.append_assoc] at he
  rcases List.prefix_or_prefix_of_prefix (he ▸ List.prefix_append a _) (List.prefix_append b _) with hs | hs
  · exact hab hs
  · exact hba hs

/-- An entity's marker stands once in what the first insertion brings for it, and in nothing else that is inserted. -/
structure Target.MarksOnce (t : Target) (p : AddressPrefix) : Prop where
  first : ∃ i is, t.insertions = i :: is
  own : ∀ i is, t.insertions = i :: is → ∀ e f : Identifier,
    occurrencesIn (t.markerOf p f) (i.linesOf p e) = if t.markerOf p f = t.markerOf p e then 1 else 0
  others : ∀ i is, t.insertions = i :: is → ∀ j ∈ is, ∀ e f : Identifier,
    occurrencesIn (t.markerOf p f) (j.linesOf p e) = 0

theorem occurrencesIn_marker_of_lacks {names : List Text} {t : Target} {p : AddressPrefix} (h : t.IsSound names inSlot)
    (fills : ∀ (e : Identifier) (ps : List Piece), hasSlotsAmong names ps = true →
      Fills inSlot (entityContext e.name p.text) ps)
    (hi : i ∈ t.insertions) (hlacks : i.lacks inSlot (pieces t.existenceMarker) = true) (e f : Identifier) :
    occurrencesIn (t.markerOf p f) (i.linesOf p e) = 0 := by
  have visible : (pieces t.existenceMarker).head?.any isVisible = true := by
    have := h.marker i hi
    simp only [Insertion.spares, Bool.and_eq_true] at this
    exact this.1.1.1
  exact occurrencesIn_of_lacks hlacks (h.regular i hi) visible (fills f _ h.named.1) (fills e _ (h.named.2 i hi))

theorem registry_marksOnce (p : AddressPrefix) : registry.MarksOnce p := by
  refine ⟨⟨_, _, rfl⟩, ?_, ?_⟩
  · intro i is h e f
    have marker : pieces registry.existenceMarker = plain "import ".toList ++
        .plain '\x7b' :: (around " ".toList "ModelName".toList "Controller ".toList ++ [.plain '\x7d']) := by
      decide +kernel
    have first : registry.insertions.head?.map (·.pieceBlock) = some [
        [] ++ plain "import ".toList ++ .plain '\x7b' :: (around " ".toList "ModelName".toList "Controller ".toList ++
          .plain '\x7d' :: around " from '../controllers/".toList "modelName".toList "Controller';".toList),
        plain "import ".toList ++ .plain '\x7b' :: (around " ".toList "ModelName".toList "Service ".toList ++
          .plain '\x7d' :: around " from '../services/".toList "modelName".toList "Service';".toList)] := by
      decide +kernel
    have block := Option.some.inj (h ▸ first)
    simp only [Insertion.linesOf, Insertion.block, block, List.map_cons, List.map_nil, Text.occurrencesIn_cons,
      Text.occurrencesIn_nil, Nat.add_zero]
    rw [occurrences_own marker (by decide) (by decide) (by decide) (by decide) (by decide) (by decide) (by decide) e f,
      occurrences_foreign marker (by decide) (by decide) (by decide) (by decide) (by decide) (by decide) (by decide)
        (by decide) (fun _ _ => fill_around_ne_of_after (by decide) (by decide) _ _ _ _) e f]
    rfl
  · intro i is h j hj
    have lacks : registry.insertions.tail.all (·.lacks isWordChar (pieces registry.existenceMarker)) = true := by
      decide +kernel
    rw [h] at lacks
    have hmem : j ∈ registry.insertions := h ▸ List.mem_cons_of_mem i hj
    exact occurrencesIn_marker_of_lacks registry_isSound (fun e _ => fills_wordSlots e p) hmem
      (List.all_eq_true.1 lacks j hj)

theorem router_marksOnce (p : AddressPrefix) : router.MarksOnce p := by
  refine ⟨⟨_, _, rfl⟩, ?_, ?_⟩
  · intro i is h e f
    have marker : pieces router.existenceMarker = plain "from '".toList ++
        .plain '.' :: (around "/".toList "modelName".toList "Routes".toList ++ [.plain '\'']) := by
      decide +kernel
    have first : router.insertions.head?.map (·.pieceBlock) = some [
        around "import ".toList "ModelName".toList "Routes ".toList ++ plain "from '".toList ++
          .plain '.' :: (around "/".toList "modelName".toList "Routes".toList ++ .plain '\'' :: plain ";".toList)] := by
      decide +kernel
    have block := Option.some.inj (h ▸ first)
    simp only [Insertion.linesOf, Insertion.block, block, List.map_cons, List.map_nil, Text.occurrencesIn_cons,
      Text.occurrencesIn_nil, Nat.add_zero]
    exact occurrences_own marker (by decide) (by decide) (by decide) (by decide) (by decide) (by decide) (by decide) e f
  · intro i is h j hj
    have lacks : router.insertions.tail.all (·.lacks isAddressChar (pieces router.existenceMarker)) = true := by
      decide +kernel
    rw [h] at lacks
    have hmem : j ∈ router.insertions := h ▸ List.mem_cons_of_mem i hj
    exact occurrencesIn_marker_of_lacks router_isSound (fun e _ => fills_addressSlots e p) hmem
      (List.all_eq_true.1 lacks j hj)

theorem documentation_marksOnce (p : AddressPrefix) : documentation.MarksOnce p := by
  have marker : pieces documentation.existenceMarker = plain "from '".toList ++
      .plain '.' :: (around "/paths/".toList "modelName".toList "Paths".toList ++ [.plain '\'']) := by
    decide +kernel
  refine ⟨⟨_, _, rfl⟩, ?_, ?_⟩
  · intro i is h e f
    have first : documentation.insertions.head?.map (·.pieceBlock) = some [
        around "import ".toList "modelName".toList "Paths ".toList ++ plain "from '".toList ++
          .plain '.' ::
            (around "/paths/".toList "modelName".toList "Paths".toList ++ .plain '\'' :: plain ";".toList)] := by
      decide +kernel
    have block := Option.some.inj (h ▸ first)
    simp only [Insertion.linesOf, Insertion.block, block, List.map_cons, List.map_nil, Text.occurrencesIn_cons,
      Text.occurrencesIn_nil, Nat.add_zero]
    exact occurrences_own marker (by decide) (by decide) (by decide) (by decide) (by decide) (by decide) (by decide) e f
  · intro i is h j hj e f
    have rest : is = documentation.insertions.tail := by rw [h, List.tail_cons]
    obtain ⟨definitions, others, htail⟩ : ∃ d ds, documentation.insertions.tail = d :: ds := ⟨_, _, rfl⟩
    have second : documentation.insertions.tail.head?.map (·.pieceBlock) = some [
        around "import ".toList "modelName".toList "Definitions from '".toList ++ .plain '.' ::
          (around "/definitions/".toList "modelName".toList "Definition".toList ++ .plain '\'' :: plain ";".toList)] := by
      decide +kernel
    have lacks : documentation.insertions.tail.tail.all
        (·.lacks isWordChar (pieces documentation.existenceMarker)) = true := by
      decide +kernel
    rw [htail] at rest second lacks
    rw [rest] at hj
    rcases List.mem_cons.1 hj with rfl | hj
    · -- The definitions are imported from another folder.
      have block := Option.some.inj second
      simp only [Insertion.linesOf, Insertion.block, block, List.map_cons, List.map_nil, Text.occurrencesIn_cons,
        Text.occurrencesIn_nil, Nat.add_zero]
      exact occurrences_foreign marker (by decide) (by decide) (by decide) (by decide) (by decide) (by decide)
        (by decide) (by decide) (fun _ _ => fill_around_ne_of_before (by decide) (by decide) _ _ _ _) e f
    · have hmem : j ∈ documentation.insertions := by
        rw [h, rest]
        exact List.mem_cons_of_mem i (List.mem_cons_of_mem definitions hj)
      exact occurrencesIn_marker_of_lacks documentation_isSound (fun e _ => fills_wordSlots e p) hmem
        (List.all_eq_true.1 lacks j hj) e f

/-- What holds of a shared file whatever entities are registered in it: every insertion is a block of neat lines, and
none of the texts that are looked for is made or broken by an insertion. -/
structure Target.IsStable (t : Target) (p : AddressPrefix) : Prop where
  renders : ∀ e : Identifier, ∀ i ∈ t.insertions,
    i.Renders (entityContext e.name p.text) i.anchor (i.linesOf p e)
  neat : ∀ f : Identifier, IsNeat (t.markerOf p f)
  marker : ∀ e f : Identifier, ∀ i ∈ t.insertions, IsClear (t.markerOf p f) i.anchor (i.linesOf p e)
  fixtures : ∀ e : Identifier, ∀ n ∈ t.fixtures, ∀ i ∈ t.insertions,
    IsClear n i.anchor (i.linesOf p e) ∧ occurrencesIn n (i.linesOf p e) = 0
  blocks : ∀ e : Identifier, ∀ i ∈ t.insertions, ∀ l ∈ i.linesOf p e, ∀ j ∈ t.insertions,
    ∀ start finish, ¬ Straddles l start (j.anchor ++ finish)
  once : t.MarksOnce p

theorem Target.IsSound.isStable {names : List Text} {t : Target} {p : AddressPrefix} (h : t.IsSound names inSlot)
    (hslot : ∀ c, inSlot c = true → isBlank c = false)
    (fills : ∀ (e : Identifier) (ps : List Piece), hasSlotsAmong names ps = true →
      Fills inSlot (entityContext e.name p.text) ps)
    (once : t.MarksOnce p) : t.IsStable p := by
  have snippet (e : Identifier) : ∀ i ∈ t.insertions, Fills inSlot (entityContext e.name p.text) (pieces i.snippet) :=
    fun i hi => fills e _ (h.named.2 i hi)
  refine ⟨?_, ?_, ?_, ?_, ?_, once⟩
  · intro e i hi
    exact renders_of_isRegular hslot (h.regular i hi) (snippet e i hi)
  · intro f
    exact isNeat_fill hslot (fills f _ h.named.1) h.neat
  · intro e f i hi
    exact isClear_of_spares (h.marker i hi) (h.regular i hi) (fills f _ h.named.1) (snippet e i hi)
  · intro e n hn i hi
    obtain ⟨hspares, hlacks⟩ := h.fixtures n hn i hi
    have hplain := Template.fills_plain inSlot (entityContext e.name p.text) n
    have visible : (plain n).head?.any isVisible = true := by
      simp only [Insertion.spares, Bool.and_eq_true] at hspares
      exact hspares.1.1.1
    have clear := isClear_of_spares hspares (h.regular i hi) hplain (snippet e i hi)
    have absent := occurrencesIn_of_lacks hlacks (h.regular i hi) visible hplain (snippet e i hi)
    rw [Template.fill_plain] at clear absent
    exact ⟨clear, absent⟩
  · intro e i hi m hm j hj start finish
    obtain ⟨l, hl, rfl⟩ := List.mem_map.1 hm
    obtain ⟨hend, hmeets⟩ := h.blocks i hi l hl
    have hf := (snippet e i hi).mono (pieceBlock_subset (h.regular i hi) hl)
    have hanchor := Template.fills_plain inSlot (entityContext e.name p.text) j.anchor
    have := Template.not_straddles_of_meets hf hanchor hend (hmeets j hj) start finish
    rwa [Template.fill_plain] at this

/-- The built-in shared files are stable under any registrations. -/
theorem isStable_of_mem_builtIn {t : Target} (h : t ∈ builtIn) (p : AddressPrefix) : t.IsStable p := by
  have address : ∀ c, isAddressChar c = true → isBlank c = false := fun c hc =>
    Naming.isBlank_eq_false_of_isAddressChar hc
  have word : ∀ c, isWordChar c = true → isBlank c = false := fun c hc =>
    address c (Naming.isAddressChar_of_isWordChar hc)
  simp only [builtIn, List.mem_cons, List.not_mem_nil, or_false] at h
  rcases h with rfl | rfl | rfl
  · exact registry_isSound.isStable word (fun e _ => fills_wordSlots e p) (registry_marksOnce p)
  · exact router_isSound.isStable address (fun e _ => fills_addressSlots e p) (router_marksOnce p)
  · exact documentation_isSound.isStable word (fun e _ => fills_wordSlots e p) (documentation_marksOnce p)

end EntityScaffold.SharedFile
