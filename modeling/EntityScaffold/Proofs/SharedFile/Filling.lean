import EntityScaffold.Proofs.SharedFile.Catalog
import EntityScaffold.SharedFile.Registration

/- The built-in shared files take no more from a context than the values that come first in it. -/

namespace EntityScaffold.SharedFile

open Naming (Identifier AddressPrefix)
open Template (Context Fills fill pieces substitute)

variable {t : Target} {c c' : Context}

theorem fill_append_context {inSlot : Char → Bool} {ps : List Template.Piece} (h : Fills inSlot c ps) (rest : Context) :
    fill (c ++ rest) ps = fill c ps := by
  have found {name v : Text} (hv : Entries.get? name c = some v) : Entries.get? name (c ++ rest) = some v := by
    simp only [Entries.get?, Option.map_eq_some_iff, List.find?_append] at hv ⊢
    obtain ⟨entry, hentry, rfl⟩ := hv
    exact ⟨entry, by rw [hentry]; rfl, rfl⟩
  rw [fill, fill]
  refine List.flatMap_congr fun piece hm => ?_
  cases piece with
  | plain d => rfl
  | slot name =>
    obtain ⟨v, hv, -⟩ := h name hm
    simp only [Template.Piece.fill, hv, found hv]

theorem Target.register_congr (marker : substitute t.existenceMarker c = substitute t.existenceMarker c')
    (insertions : ∀ i ∈ t.insertions,
      substitute i.snippet c = substitute i.snippet c' ∧ substitute i.anchor c = substitute i.anchor c')
    (content : Text) : t.register c content = t.register c' content := by
  have next : ∀ is ⊆ t.insertions, ∀ s : Spliced, is.foldl (Spliced.next c) s = is.foldl (Spliced.next c') s := by
    intro is
    induction is with
    | nil => exact fun _ s => rfl
    | cons i is ih =>
      intro sub s
      obtain ⟨snippet, anchor⟩ := insertions i (sub List.mem_cons_self)
      have same : Spliced.next c s i = Spliced.next c' s i := by
        simp only [Spliced.next, splice, snippet, anchor]
      rw [List.foldl_cons, List.foldl_cons, same]
      exact ih (fun j hj => sub (List.mem_cons_of_mem i hj)) _
  rw [Target.register, Target.register, marker, applyInsertions, applyInsertions, next _ (List.Subset.refl _)]

theorem slots_of_mem_builtIn (ht : t ∈ builtIn) : hasSlotsAmong addressSlots (pieces t.existenceMarker) = true ∧
    ∀ i ∈ t.insertions, hasSlotsAmong addressSlots (pieces i.snippet) = true ∧
      hasSlotsAmong addressSlots (pieces i.anchor) = true := by
  have checks : ∀ t ∈ builtIn, hasSlotsAmong addressSlots (pieces t.existenceMarker) = true ∧
      ∀ i ∈ t.insertions, hasSlotsAmong addressSlots (pieces i.snippet) = true ∧
        hasSlotsAmong addressSlots (pieces i.anchor) = true := by decide
  exact checks t ht

/-- Contexts that give the same names fill alike what has no other slots. -/
theorem Names.fill_eq {entity apiPrefix : Text} {ps : List Template.Piece} (h : Names entity apiPrefix c)
    (h' : Names entity apiPrefix c') (slots : hasSlotsAmong addressSlots ps = true) : fill c ps = fill c' ps := by
  refine List.flatMap_congr fun piece hm => ?_
  cases piece with
  | plain d => rfl
  | slot name =>
    have known : name ∈ addressSlots := by simpa using List.all_eq_true.1 slots _ hm
    simp only [addressSlots, wordSlots, List.mem_cons, List.not_mem_nil, or_false] at known
    rcases known with rfl | rfl | rfl | rfl
    · simp only [Template.Piece.fill, h.apiPrefix, h'.apiPrefix]
    · simp only [Template.Piece.fill, h.full, h'.full]
    · simp only [Template.Piece.fill, h.lower, h'.lower]
    · simp only [Template.Piece.fill, h.plural, h'.plural]

theorem Names.register_eq {entity apiPrefix : Text} (ht : t ∈ builtIn) (h : Names entity apiPrefix c)
    (h' : Names entity apiPrefix c') (content : Text) : t.register c content = t.register c' content := by
  obtain ⟨marker, insertions⟩ := slots_of_mem_builtIn ht
  refine Target.register_congr (h.fill_eq h' marker) (fun i hi => ?_) content
  obtain ⟨snippet, anchor⟩ := insertions i hi
  exact ⟨h.fill_eq h' snippet, h.fill_eq h' anchor⟩

theorem Target.register_append (ht : t ∈ builtIn) (e : Identifier) (p : AddressPrefix) (rest : Context)
    (content : Text) :
    t.register (entityContext e.name p.text ++ rest) content = t.register (entityContext e.name p.text) content :=
  (names_nameContext e.name _ rest).register_eq ht (names_entityContext e.name p.text) content

end EntityScaffold.SharedFile
