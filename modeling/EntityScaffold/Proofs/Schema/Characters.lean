import EntityScaffold.Proofs.Schema.Statements

/-
The characters of a model. Names and types of fields are cut out of the block, which ends at the first closing brace: no
closing brace is in them.
-/

namespace EntityScaffold.Schema

open Text (isBlank words lines)

variable {t w : Text} {f : Field}

theorem mem_modifyHead {c : Char} {ts : List Text} (h : w ∈ ts.modifyHead (c :: ·)) :
    w ∈ ts ∨ ∃ v ∈ ts, w = c :: v := by
  cases ts with
  | nil => exact Or.inl h
  | cons v vs =>
    rcases List.mem_cons.1 h with rfl | h
    · exact Or.inr ⟨v, List.mem_cons_self, rfl⟩
    · exact Or.inl (List.mem_cons_of_mem v h)

theorem subset_of_mem_modifyHead {c : Char} {ts : List Text} (sub : ∀ v ∈ ts, v ⊆ t) (h : w ∈ ts.modifyHead (c :: ·)) :
    w ⊆ c :: t := by
  rcases mem_modifyHead h with h | ⟨v, hv, rfl⟩
  · exact List.Subset.trans (sub w h) (List.subset_cons_self c t)
  · exact List.cons_subset_cons c (sub v hv)

theorem subset_of_mem_words (h : w ∈ words t) : w ⊆ t := by
  induction t generalizing w with
  | nil => exact absurd h (by simp [words])
  | cons c r ih =>
    cases hc : isBlank c with
    | true =>
      rw [Text.words_cons_blank hc] at h
      exact List.Subset.trans (ih h) (List.subset_cons_self c r)
    | false =>
      cases r with
      | nil =>
        obtain rfl : w = [c] := by simpa [words, hc] using h
        exact List.Subset.refl _
      | cons d r =>
        rw [Text.words_cons_cons hc] at h
        split at h
        · rcases List.mem_cons.1 h with rfl | h
          · simp
          · exact List.Subset.trans (ih h) (List.subset_cons_self c _)
        · exact subset_of_mem_modifyHead (fun v hv => ih hv) h

theorem subset_of_mem_parts (h : w ∈ parts t) : w ⊆ t := by
  induction t generalizing w with
  | nil =>
    obtain rfl : w = [] := by simpa [parts] using h
    exact List.Subset.refl _
  | cons c r ih =>
    by_cases separates : c = ';' ∧ r.count '"' % 2 = 0
    · obtain ⟨rfl, even⟩ := separates
      rw [parts_cons_separator even] at h
      rcases List.mem_cons.1 h with rfl | h
      · exact List.nil_subset _
      · exact List.Subset.trans (ih h) (List.subset_cons_self ';' r)
    · rw [parts_cons separates] at h
      exact subset_of_mem_modifyHead (fun v hv => ih hv) h

theorem subset_of_mem_statements {body : Text} (h : w ∈ (lines body).flatMap statementsOf) : w ⊆ body := by
  obtain ⟨l, hl, hw⟩ := List.mem_flatMap.1 h
  have inBody : l ⊆ body := (Text.infix_of_mem_splitAt hl).subset
  rw [statementsOf] at hw
  split at hw
  · obtain rfl := List.mem_singleton.1 hw
    exact inBody
  · exact List.Subset.trans (subset_of_mem_parts hw) inBody

theorem withoutBrackets_subset (t : Text) : withoutBrackets t ⊆ t := by
  fun_induction withoutBrackets t with
  | case1 r ih => exact List.Subset.trans ih (List.Subset.trans (List.subset_cons_self _ r) (List.subset_cons_self _ _))
  | case2 c r _ ih => exact List.cons_subset_cons c ih
  | case3 => exact List.nil_subset _

theorem bareType_subset (raw : Text) : bareType raw ⊆ raw :=
  List.Subset.trans (withoutBrackets_subset _) (List.filter_subset_self _)

theorem Field.subset_of_ofLine? {optional : List Text} (h : Field.ofLine? optional t = some f) :
    f.name ⊆ t ∧ f.rawType ⊆ t := by
  unfold Field.ofLine? at h
  split at h
  · next name token attributes hwords =>
    have inLine {v : Text} (hv : v ∈ name :: token :: attributes) : v ⊆ t := subset_of_mem_words (hwords ▸ hv)
    split at h
    · exact absurd h (by simp)
    · obtain rfl := Option.some.inj h
      refine ⟨inLine List.mem_cons_self, ?_⟩
      exact List.Subset.trans (bareType_subset token) (inLine (List.mem_cons_of_mem name List.mem_cons_self))
  · exact absurd h (by simp)

theorem subset_of_mem_fields {entity body : Text} {optional : List Text}
    (h : f ∈ (modelOfBody entity optional body).fields) : f.name ⊆ body ∧ f.rawType ⊆ body := by
  rw [fields_eq_given, given] at h
  obtain ⟨s, hs, hf⟩ := List.mem_filterMap.1 h
  have inBody : s ⊆ body := subset_of_mem_statements ((List.takeWhile_sublist _).subset (List.mem_filter.1 hs).1)
  obtain ⟨name, rawType⟩ := Field.subset_of_ofLine? hf
  exact ⟨List.Subset.trans name inBody, List.Subset.trans rawType inBody⟩

theorem not_mem_of_blockHere? {entity body : Text} (h : blockHere? entity t = some body) : '\x7d' ∉ body := by
  unfold blockHere? at h
  split at h
  · exact absurd h (by simp)
  · next r _ =>
    obtain ⟨⟨before, rest⟩, hcut, rfl⟩ := Option.map_eq_some_iff.1 h
    intro mem
    change '\x7d' ∈ before at mem
    obtain ⟨x, y, hbefore, first⟩ := List.eq_append_cons_of_mem mem
    have whole : x ++ '\x7d' :: (y ++ rest) = r := by
      rw [← Text.append_of_cut? hcut, hbefore, List.append_assoc, List.cons_append]
    rw [← whole, Text.cut?_single first] at hcut
    obtain ⟨rfl, -⟩ := Prod.mk.inj (Option.some.inj hcut)
    exact first mem

theorem not_mem_of_blockFrom? {entity body : Text} {startsLine : Bool} (h : blockFrom? entity startsLine t = some body) :
    '\x7d' ∉ body := by
  induction t generalizing startsLine with
  | nil => exact absurd h (by simp [blockFrom?])
  | cons c r ih =>
    rw [blockFrom?, Option.or_eq_some_iff] at h
    rcases h with h | ⟨-, h⟩
    · split at h
      · exact not_mem_of_blockHere? h
      · exact absurd h (by simp)
    · exact ih h

theorem not_mem_of_mem_fields {schema entity : Text} {optional : List Text} {m : Model}
    (extracted : model? schema entity optional = some m) (h : f ∈ m.fields) :
    '\x7d' ∉ f.name ∧ '\x7d' ∉ f.rawType := by
  obtain ⟨body, hbody, rfl⟩ := Option.map_eq_some_iff.1 extracted
  obtain ⟨name, rawType⟩ := subset_of_mem_fields h
  exact ⟨fun mem => not_mem_of_blockFrom? hbody (name mem), fun mem => not_mem_of_blockFrom? hbody (rawType mem)⟩

end EntityScaffold.Schema
