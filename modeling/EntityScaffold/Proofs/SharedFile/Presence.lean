import EntityScaffold.Proofs.SharedFile.Again
import EntityScaffold.Proofs.SharedFile.Catalog

/-
Insertions that are left out because their snippet is there already. The lines of the snippet are looked for inside the lines
of a text, so that a longer line hides a shorter one that it holds. The lines of the built-in shared files are not hidden so:
one that stands inside the line of another entity is the same line.
-/

namespace EntityScaffold.Text

variable {needle t : Text}

theorem exists_brokenLines_eq (t : Text) : ∃ q qs, brokenLines t = q :: qs := by
  cases t with
  | nil => exact ⟨[], [], rfl⟩
  | cons c r =>
    rw [brokenLines]
    split
    · exact ⟨_, _, rfl⟩
    · split <;> exact ⟨_, _, rfl⟩

theorem prefix_iff_brokenLines (whole : ∀ c ∈ needle, isLineEnd c = false) {q : Text} {qs : List Text}
    (h : brokenLines t = q :: qs) : needle <+: t ↔ needle <+: q := by
  induction t generalizing needle q qs with
  | nil =>
    obtain ⟨rfl, -⟩ := List.cons.inj h
    rfl
  | cons c r ih =>
    cases needle with
    | nil => simp
    | cons d n =>
      obtain ⟨q', qs', hr⟩ := exists_brokenLines_eq r
      cases hc : isLineEnd c with
      | true =>
        obtain ⟨rfl, -⟩ : [] = q ∧ _ := by simpa [brokenLines, hc] using h
        have other : d ≠ c := fun e => by simp [← e, whole d List.mem_cons_self] at hc
        simp [List.cons_prefix_cons, other]
      | false =>
        obtain ⟨rfl, -⟩ : c :: q' = q ∧ _ := by simpa [brokenLines, hc, hr] using h
        rw [List.cons_prefix_cons, List.cons_prefix_cons, ih (fun e he => whole e (List.mem_cons_of_mem d he)) hr]

theorem infix_iff_brokenLines (whole : ∀ c ∈ needle, isLineEnd c = false) :
    needle <:+: t ↔ ∃ m ∈ brokenLines t, needle <:+: m := by
  induction t with
  | nil => simp [brokenLines]
  | cons c r ih =>
    obtain ⟨q, qs, hr⟩ := exists_brokenLines_eq r
    rw [hr] at ih
    cases hc : isLineEnd c with
    | true =>
      have broken : brokenLines (c :: r) = [] :: q :: qs := by simp [brokenLines, hc, hr]
      have start : needle <+: c :: r ↔ needle <:+: [] := by
        rw [prefix_iff_brokenLines whole broken, List.infix_nil, List.prefix_nil]
      rw [List.infix_cons_iff, start, ih, broken, ← List.exists_mem_cons_iff]
    | false =>
      have broken : brokenLines (c :: r) = (c :: q) :: qs := by simp [brokenLines, hc, hr]
      rw [List.infix_cons_iff, prefix_iff_brokenLines whole broken, ih, broken, List.exists_mem_cons_iff,
        List.exists_mem_cons_iff, List.infix_cons_iff, or_assoc]

end EntityScaffold.Text

namespace EntityScaffold.SharedFile

open Naming (Identifier AddressPrefix isWordChar isAddressChar)
open Template (Context Fills pieces standsAlone substitute)
open Text (brokenLines strip)

variable {inSlot : Char → Bool} {names : List Text} {t : Target} {i j : Insertion} {e f : Identifier} {p q : AddressPrefix}
  {l m : Text}

theorem isLineEnd_of_mem_visibleLines {snippet : Text} (h : l ∈ visibleLines snippet) : ∀ c ∈ l, Text.isLineEnd c = false := by
  obtain ⟨line, hline, rfl⟩ := List.mem_map.1 (List.mem_filter.1 h).1
  exact fun c hc => (Text.brokenLines_spec hline).2 c ((Text.infix_of_strip line).subset hc)

theorem present_iff_brokenLines (content snippet : Text) : present content snippet = true ↔
    visibleLines snippet ≠ [] ∧ ∀ l ∈ visibleLines snippet, ∃ m ∈ brokenLines content, l <:+: m := by
  rw [present_iff]
  refine and_congr_right fun _ => forall₂_congr fun l hl => ?_
  exact Text.infix_iff_brokenLines (isLineEnd_of_mem_visibleLines hl)

/-- The text in which an insertion's snippet is looked for: the body of its section, or all of the text if it lacks that. -/
def Insertion.searched (i : Insertion) (content : Text) : Text := (i.body? content).getD content

theorem splice_eq_alreadyThere_iff (context : Context) (content : Text) (i : Insertion) :
    splice context content i = .alreadyThere ↔ present (i.searched content) (substitute i.snippet context) = true := by
  rw [Insertion.searched, Insertion.body?_eq, splice]
  cases i.section? content with
  | some s => cases there : present s.body (substitute i.snippet context) <;> simp [there]
  | none =>
    cases there : present content (substitute i.snippet context) with
    | true => simp [there]
    | false =>
      cases insertBeforeAnchor? content (substitute i.anchor context) (substitute i.snippet context) <;> simp [there]

/-- Only an insertion whose snippet is there leaves everything as it is: another is counted, or gives a warning. -/
theorem next_eq_self_iff (context : Context) (s : Spliced) (i : Insertion) :
    s.next context i = s ↔ splice context s.content i = .alreadyThere := by
  obtain ⟨content, applied, warnings⟩ := s
  rw [Spliced.next]
  cases splice context content i <;> simp

section Catalog

/-- No line of a shared file's insertions, with whatever words in it, is a proper part of another. -/
def Target.LinesStandAlone (inSlot : Char → Bool) (t : Target) : Prop :=
  ∀ i ∈ t.insertions, ∀ j ∈ t.insertions, ∀ n ∈ i.pieceBlock, ∀ l ∈ j.pieceBlock, standsAlone inSlot n l = true

theorem Insertion.Renders.lines_eq {context : Context} {anchor : Text} {block : List Text}
    (h : i.Renders context anchor block) : i.lines context = block := by
  rw [Insertion.lines, h.snippet_eq, visibleLines_ended h.neat]

theorem Target.LinesStandAlone.eq_of_inside (alone : t.LinesStandAlone inSlot) (sound : t.IsSound names inSlot)
    (fills : ∀ (e : Identifier) (p : AddressPrefix) (ps : List Template.Piece), hasSlotsAmong names ps = true →
      Fills inSlot (entityContext e.name p.text) ps)
    (hi : i ∈ t.insertions) (hj : j ∈ t.insertions) (hl : l ∈ i.linesOf p e) (hm : m ∈ j.linesOf q f)
    (inside : l <:+: m) : l = m := by
  have filled {k : Insertion} (hk : k ∈ t.insertions) (e : Identifier) (p : AddressPrefix) {n : List Template.Piece}
      (hn : n ∈ k.pieceBlock) : Fills inSlot (entityContext e.name p.text) n :=
    (fills e p _ (sound.named.2 k hk)).mono (pieceBlock_subset (sound.regular k hk) hn)
  obtain ⟨n, hn, rfl⟩ := List.mem_map.1 hl
  obtain ⟨o, ho, rfl⟩ := List.mem_map.1 hm
  exact Template.fill_eq_of_inside (alone i hi j hj n hn o ho) (filled hi e p hn) (filled hj f q ho) inside

theorem linesStandAlone : registry.LinesStandAlone isWordChar ∧ router.LinesStandAlone isAddressChar ∧
    documentation.LinesStandAlone isWordChar := by
  unfold Target.LinesStandAlone
  decide

theorem linesOf_eq_of_inside (ht : t ∈ builtIn) (hi : i ∈ t.insertions) (hj : j ∈ t.insertions)
    (hl : l ∈ i.linesOf p e) (hm : m ∈ j.linesOf q f) (inside : l <:+: m) : l = m := by
  obtain ⟨ofRegistry, ofRouter, ofDocumentation⟩ := linesStandAlone
  simp only [builtIn, List.mem_cons, List.not_mem_nil, or_false] at ht
  rcases ht with rfl | rfl | rfl
  · exact ofRegistry.eq_of_inside registry_isSound (fun e p _ => fills_wordSlots e p) hi hj hl hm inside
  · exact ofRouter.eq_of_inside router_isSound (fun e p _ => fills_addressSlots e p) hi hj hl hm inside
  · exact ofDocumentation.eq_of_inside documentation_isSound (fun e p _ => fills_wordSlots e p) hi hj hl hm inside

theorem IsNeat.infix_strip_iff (h : IsNeat l) (m : Text) : l <:+: m ↔ l <:+: strip m := by
  obtain ⟨a, b, before, after, hm⟩ := Text.exists_eq_gap_strip m
  obtain ⟨c, r, starts, hc⟩ := h.starts
  obtain ⟨s, d, ends, hd⟩ := h.ends
  conv_lhs => rw [hm, starts, Text.infix_gap_append_iff before hc, ← starts, ends, Text.infix_append_gap_iff after hd, ← ends]

theorem lines_eq_of_inside (ht : t ∈ builtIn) (hi : i ∈ t.insertions) (hj : j ∈ t.insertions)
    (hl : l ∈ i.lines (entityContext e.name p.text)) (hm : strip m ∈ j.lines (entityContext f.name q.text))
    (inside : l <:+: m) : strip m = l := by
  have renders := (isStable_of_mem_builtIn ht p).renders e i hi
  rw [renders.lines_eq] at hl
  rw [((isStable_of_mem_builtIn ht q).renders f j hj).lines_eq] at hm
  exact (linesOf_eq_of_inside ht hi hj hl hm (((renders.neat l hl).infix_strip_iff m).1 inside)).symm

end Catalog

/-- An insertion changes nothing and gives no warning just when its snippet has lines with text, and each of them stands
somewhere inside a line of the text in which it is looked for. Of the built-in shared files, no line of an entity stands inside
a line of another, unless they are the same. -/
theorem applyInsertions_skips_iff (context : Context) (content : Text) (us : List Insertion) (i : Insertion) :
    (applyInsertions context content (us ++ [i]) = applyInsertions context content us ↔
      i.lines context ≠ [] ∧ ∀ l ∈ i.lines context,
        ∃ m ∈ brokenLines (i.searched (applyInsertions context content us).content), l <:+: m) ∧
    (∀ t ∈ builtIn, ∀ i ∈ t.insertions, ∀ j ∈ t.insertions, ∀ (e f : Identifier) (p q : AddressPrefix),
      ∀ l ∈ i.lines (entityContext e.name p.text), ∀ m, strip m ∈ j.lines (entityContext f.name q.text) →
        l <:+: m → strip m = l) := by
  refine ⟨?_, fun t ht i hi j hj e f p q l hl m => lines_eq_of_inside ht hi hj hl⟩
  rw [applyInsertions_concat, next_eq_self_iff, splice_eq_alreadyThere_iff, present_iff_brokenLines]
  rfl

section Samples

def namesText (name : String) : Text :=
  "// crudgen:begin names\n  ".toList ++ name.toList ++ ",\n// crudgen:end names\n".toList

def nameInsertion : Insertion where
  anchor := "END".toList
  snippet := entitySlot ++ ",\n".toList
  sectionName := some "names".toList

def gadget : Identifier := ⟨"Gadget".toList, by decide, by decide⟩

/-- An entity whose name ends as another's. -/
def superGadget : Identifier := ⟨"SuperGadget".toList, by decide, by decide⟩

def rootPrefix : AddressPrefix := ⟨"/".toList, by decide⟩

theorem applyInsertions_skips_iff_gadget :
    applyInsertions (entityContext gadget.name []) (namesText "Gadget") [nameInsertion] = { content := namesText "Gadget" } ∧
    ∀ l ∈ router.insertions.flatMap (·.lines (entityContext gadget.name rootPrefix.text)),
      ∀ m ∈ router.insertions.flatMap (·.lines (entityContext superGadget.name rootPrefix.text)), ¬ l <:+: m := by
  obtain ⟨skips, -⟩ := applyInsertions_skips_iff (entityContext gadget.name []) (namesText "Gadget") [] nameInsertion
  obtain ⟨-, apart⟩ := applyInsertions_skips_iff [] [] [] nameInsertion
  refine ⟨skips.2 (by decide +kernel), ?_⟩
  intro l hl m hm inside
  obtain ⟨i, hi, hl⟩ := List.mem_flatMap.1 hl
  obtain ⟨j, hj, hm⟩ := List.mem_flatMap.1 hm
  have different : ∀ i ∈ router.insertions, ∀ j ∈ router.insertions,
      ∀ l ∈ i.lines (entityContext gadget.name rootPrefix.text),
      ∀ m ∈ j.lines (entityContext superGadget.name rootPrefix.text), strip m = m ∧ m ≠ l := by decide +kernel
  obtain ⟨neat, other⟩ := different i hi j hj l hl m hm
  have same := apart router (by simp [builtIn]) i hi j hj gadget superGadget rootPrefix rootPrefix l hl m
    (by rwa [neat]) inside
  exact other (neat.symm.trans same)

/-- A name in the list hides another one that it ends with: the insertion is left out, and no line is the name's. -/
theorem longer_line_hides :
    "Gadget,".toList ∈ nameInsertion.lines (entityContext gadget.name []) ∧
    (∀ m ∈ brokenLines (namesText "SuperGadget"), strip m ≠ "Gadget,".toList) ∧
    applyInsertions (entityContext gadget.name []) (namesText "SuperGadget") [nameInsertion] =
      { content := namesText "SuperGadget" } := by
  decide +kernel

end Samples

end EntityScaffold.SharedFile
