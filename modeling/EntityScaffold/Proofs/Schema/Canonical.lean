import EntityScaffold.Proofs.Schema.Characters
import EntityScaffold.Proofs.Text.Search

/-
The canonical declaration of a field: its name, its type with the marks of its flags, and the attribute of a unique field. A
field that was read is read again from it, unless pairs of brackets stood one in another in its type: of these, the inner
ones are taken away and leave a pair of brackets behind.
-/

namespace EntityScaffold.Schema

open Text (isBlank words)

variable {optional : List Text} {line t : Text} {f : Field}

def listMark : Text := "[]".toList

theorem listMark_prefix_cons_iff {c : Char} {r : Text} : listMark <+: c :: r ↔ c = '[' ∧ r.head? = some ']' := by
  cases r with
  | nil => simp [listMark]
  | cons d r => simp [listMark, eq_comm]

theorem withoutBrackets_cons {c : Char} {r : Text} (h : ¬ listMark <+: c :: r) :
    withoutBrackets (c :: r) = c :: withoutBrackets r := by
  rw [withoutBrackets]
  rintro s rfl rfl
  exact h ⟨s, rfl⟩

theorem length_withoutBrackets_le (t : Text) : (withoutBrackets t).length ≤ t.length := by
  fun_induction withoutBrackets t with
  | case1 r ih =>
    simp only [List.length_cons]
    omega
  | case2 c r _ ih => simpa using ih
  | case3 => exact Nat.le_refl 0

theorem withoutBrackets_eq_self_iff (t : Text) : withoutBrackets t = t ↔ ¬ listMark <:+: t := by
  fun_induction withoutBrackets t with
  | case1 r ih =>
    have mark : listMark <:+: '[' :: ']' :: r := ⟨[], r, rfl⟩
    refine iff_of_false ?_ (not_not_intro mark)
    intro same
    have shorter := length_withoutBrackets_le r
    rw [same] at shorter
    simp only [List.length_cons] at shorter
    omega
  | case2 c r apart ih =>
    have first : ¬ listMark <+: c :: r := by
      rintro ⟨s, hs⟩
      obtain ⟨rfl, rfl⟩ := List.cons.inj hs
      exact apart s rfl rfl
    rw [List.cons.injEq, ih, List.infix_cons_iff]
    simp [first]
  | case3 => simp [listMark]

theorem withoutBrackets_append_listMark (t : Text) : withoutBrackets (t ++ listMark) = withoutBrackets t := by
  fun_induction withoutBrackets t with
  | case1 r ih => exact ih
  | case2 c r apart ih =>
    rw [List.cons_append, withoutBrackets_cons, ih]
    rw [listMark_prefix_cons_iff]
    rintro ⟨rfl, hr⟩
    cases r with
    | nil => exact absurd hr (by decide)
    | cons d r =>
      obtain rfl : d = ']' := by simpa using hr
      exact apart r rfl rfl
  | case3 => rfl

def pairs (n : Nat) : Text := (List.replicate n listMark).flatten

theorem pairs_succ (n : Nat) : pairs (n + 1) = '[' :: ']' :: pairs n := rfl

/-- Brackets around pairs of brackets. -/
def nest (n : Nat) : Text := '[' :: (pairs n ++ [']'])

theorem head?_withoutBrackets_iff (t : Text) :
    (withoutBrackets t).head? = some ']' ↔ ∃ n, pairs n ++ [']'] <+: t := by
  fun_induction withoutBrackets t with
  | case1 r ih =>
    rw [ih]
    constructor
    · rintro ⟨n, hn⟩
      exact ⟨n + 1, by simpa [pairs_succ] using hn⟩
    · rintro ⟨n, hn⟩
      cases n with
      | zero => exact absurd hn (by simp [pairs])
      | succ n => exact ⟨n, by simpa [pairs_succ] using hn⟩
  | case2 c r apart ih =>
    constructor
    · intro h
      obtain rfl : c = ']' := by simpa using h
      exact ⟨0, r, rfl⟩
    · rintro ⟨n, hn⟩
      cases n with
      | zero =>
        obtain ⟨s, hs⟩ := hn
        obtain ⟨rfl, -⟩ := List.cons.inj hs
        rfl
      | succ n =>
        obtain ⟨s, hs⟩ := hn
        obtain ⟨rfl, rfl⟩ := List.cons.inj hs
        exact absurd rfl (apart _ rfl)
  | case3 => simp

/-- A pair of brackets is left where brackets stood around pairs of them. -/
theorem listMark_infix_withoutBrackets_iff (t : Text) :
    listMark <:+: withoutBrackets t ↔ ∃ n, nest (n + 1) <:+: t := by
  fun_induction withoutBrackets t with
  | case1 r ih =>
    rw [ih]
    refine exists_congr fun n => ?_
    rw [List.infix_cons_iff, List.infix_cons_iff]
    simp [nest, pairs_succ]
  | case2 c r apart ih =>
    rw [List.infix_cons_iff, listMark_prefix_cons_iff, head?_withoutBrackets_iff, ih]
    constructor
    · rintro (⟨rfl, n, hn⟩ | ⟨n, hn⟩)
      · cases n with
        | zero =>
          obtain ⟨s, rfl⟩ := hn
          exact absurd rfl (apart s rfl)
        | succ n => exact ⟨n, List.infix_cons_iff.2 (.inl (by simpa [nest] using hn))⟩
      · exact ⟨n, List.infix_cons_iff.2 (.inr hn)⟩
    · rintro ⟨n, hn⟩
      rcases List.infix_cons_iff.1 hn with hn | hn
      · obtain ⟨rfl, rest⟩ := List.cons_prefix_cons.1 hn
        exact .inl ⟨rfl, n + 1, rest⟩
      · exact .inr ⟨n, hn⟩
  | case3 => simp [listMark, nest]

/-- A field's type with the marks of a list and of an optional field. -/
def Field.markedType (f : Field) : Text := f.typeToken ++ if f.isOptional then ['?'] else []

/-- The declaration that spells a field's name, type and flags. -/
def Field.declaration (f : Field) : Text :=
  f.name ++ ' ' :: (f.markedType ++ if f.isUnique then " @unique".toList else [])

theorem Field.markedType_eq (f : Field) :
    f.markedType = f.rawType ++ ((if f.isArray then listMark else []) ++ if f.isOptional then ['?'] else []) := by
  rw [markedType, typeToken]
  cases f.isArray with
  | true => exact List.append_assoc _ _ _
  | false => rfl

theorem bareType_markedType (plain : '?' ∉ f.rawType) : bareType f.markedType = withoutBrackets f.rawType := by
  have kept : f.rawType.filter (· ≠ '?') = f.rawType := List.filter_eq_self.2 fun c hc => by
    simpa using ne_of_mem_of_not_mem hc plain
  have marks : ((if f.isArray then listMark else []) ++ if f.isOptional then ['?'] else []).filter (· ≠ '?') =
      if f.isArray then listMark else [] := by
    cases f.isArray <;> cases f.isOptional <;> rfl
  rw [bareType, f.markedType_eq, List.filter_append, kept, marks]
  split
  · exact withoutBrackets_append_listMark f.rawType
  · rw [List.append_nil]

theorem getLast?_markedType (plain : '?' ∉ f.rawType) : f.markedType.getLast? = some '?' ↔ f.isOptional = true := by
  rw [f.markedType_eq]
  cases f.isOptional with
  | true => simp
  | false =>
    cases f.isArray with
    | true => simp [listMark]
    | false =>
      simp only [Bool.false_eq_true, if_false, List.append_nil, iff_false]
      exact fun h => plain (List.mem_of_getLast? h)

theorem has_markedType (plain : ¬ listMark <:+: f.rawType) : Text.has f.markedType listMark = f.isArray := by
  rw [Bool.eq_iff_iff, Text.has_iff, f.markedType_eq]
  cases f.isArray with
  | true => exact iff_of_true ⟨f.rawType, _, List.append_assoc _ _ _⟩ rfl
  | false =>
    refine iff_of_false ?_ Bool.false_ne_true
    cases f.isOptional with
    | true =>
      intro mark
      rcases (Text.infix_append_cons_iff (by decide) (by decide) f.rawType []).1 mark with mark | mark
      · exact plain mark
      · exact absurd mark (by decide)
    | false => simpa using plain

theorem Field.ofLine?_of_words {name token : Text} {attributes : List Text} (h : words line = name :: token :: attributes)
    (optional : List Text) : Field.ofLine? optional line =
      if bareType token = [] then none
      else some {
        name := name
        rawType := bareType token
        isOptional := token.getLast? = some '?' || optional.contains name
        isArray := Text.has token listMark
        isUnique := attributes.contains "@unique".toList } := by
  simp only [Field.ofLine?, h, List.isEmpty_iff]
  rfl

theorem Field.ofLine?_eq_some (h : Field.ofLine? optional line = some f) :
    ∃ token attributes, words line = f.name :: token :: attributes ∧ f.rawType = bareType token ∧ f.rawType ≠ [] ∧
      (f.isOptional = false → f.name ∉ optional) := by
  cases hwords : words line with
  | nil => simp [Field.ofLine?, hwords] at h
  | cons name rest =>
    cases rest with
    | nil => simp [Field.ofLine?, hwords] at h
    | cons token attributes =>
      rw [Field.ofLine?_of_words hwords] at h
      split at h
      · exact absurd h (by simp)
      · next nonempty =>
        obtain rfl := Option.some.inj h
        exact ⟨token, attributes, rfl, rfl, nonempty, by simp⟩

theorem not_mem_bareType (raw : Text) : '?' ∉ bareType raw := by
  intro mem
  have kept := withoutBrackets_subset _ mem
  simp at kept

theorem words_declaration {token : Text} {attributes : List Text} (h : words line = f.name :: token :: attributes)
    (type : f.rawType = bareType token) (nonempty : f.rawType ≠ []) :
    words f.declaration = f.name :: f.markedType :: if f.isUnique then ["@unique".toList] else [] := by
  have ofName : words f.name = [f.name] := by
    have mem : f.name ∈ words line := by simp [h]
    exact Text.words_of_word (Text.ne_nil_of_mem_words mem) (Text.isBlank_of_mem_words mem)
  have ofType : words f.markedType = [f.markedType] := by
    have mem : token ∈ words line := by simp [h]
    have raw : ∀ c ∈ f.rawType, isBlank c = false := fun c hc =>
      Text.isBlank_of_mem_words mem c (bareType_subset token (type ▸ hc))
    have marks : ∀ c ∈ (if f.isArray then listMark else []) ++ (if f.isOptional then ['?'] else []), isBlank c = false := by
      cases f.isArray <;> cases f.isOptional <;> decide
    rw [f.markedType_eq]
    refine Text.words_of_word (by simp [nonempty]) fun c hc => ?_
    rcases List.mem_append.1 hc with hc | hc
    · exact raw c hc
    · exact marks c hc
  have blank : isBlank ' ' = true := by decide
  rw [Field.declaration, Text.words_append_cons blank, ofName]
  cases f.isUnique with
  | true =>
    have last : words (f.markedType ++ " @unique".toList) = words f.markedType ++ words "@unique".toList :=
      Text.words_append_cons blank f.markedType "@unique".toList
    simp only [if_true, last, ofType]
    rfl
  | false => simp [ofType]

/-- A field that was read has no question mark in its type, and is read again from its declaration just where no pair of
brackets was left in its type, that is, where none stood around others. -/
theorem ofLine?_declaration_iff (h : Field.ofLine? optional line = some f) :
    '?' ∉ f.rawType ∧ (Field.ofLine? optional f.declaration = some f ↔ ¬ listMark <:+: f.rawType) ∧
      ∃ token ∈ (words line)[1]?, listMark <:+: f.rawType ↔ ∃ n, nest (n + 1) <:+: token.filter (· ≠ '?') := by
  obtain ⟨token, attributes, hwords, type, nonempty, required⟩ := Field.ofLine?_eq_some h
  have plain : '?' ∉ f.rawType := type ▸ not_mem_bareType token
  have again := Field.ofLine?_of_words (words_declaration hwords type nonempty) optional
  rw [bareType_markedType plain] at again
  refine ⟨plain, ⟨?_, ?_⟩, token, by simp [hwords], ?_⟩
  · intro same
    rw [again] at same
    split at same
    · exact absurd same (by simp)
    · exact (withoutBrackets_eq_self_iff f.rawType).1 (congrArg Field.rawType (Option.some.inj same))
  · intro unmarked
    have last : decide (f.markedType.getLast? = some '?') = f.isOptional := by
      rw [Bool.eq_iff_iff, decide_eq_true_iff]
      exact getLast?_markedType plain
    have isOptional : (decide (f.markedType.getLast? = some '?') || optional.contains f.name) = f.isOptional := by
      rw [last]
      cases hf : f.isOptional with
      | true => rfl
      | false => simpa using required hf
    have isUnique : (if f.isUnique then ["@unique".toList] else []).contains "@unique".toList = f.isUnique := by
      cases f.isUnique <;> decide
    rw [again, (withoutBrackets_eq_self_iff f.rawType).2 unmarked, if_neg nonempty, isOptional, isUnique,
      has_markedType unmarked]
  · rw [type]
    exact listMark_infix_withoutBrackets_iff _

/-- A field of which all flags are set is read again from its declaration. -/
theorem ofLine?_declaration_iff_labels :
    Field.ofLine? [] "labels [x]String[]? @db.Text @unique".toList =
      some ⟨"labels".toList, "[x]String".toList, true, true, true⟩ ∧
    Field.ofLine? [] "labels [x]String[]? @unique".toList = some ⟨"labels".toList, "[x]String".toList, true, true, true⟩ := by
  have read : Field.ofLine? [] "labels [x]String[]? @db.Text @unique".toList =
      some ⟨"labels".toList, "[x]String".toList, true, true, true⟩ := by decide +kernel
  obtain ⟨-, again, -⟩ := ofLine?_declaration_iff read
  exact ⟨read, again.2 (by decide)⟩

/-- Of brackets in brackets, a pair is left in the type; from the declaration of the field it is taken away too. -/
theorem ofLine?_nestedBrackets :
    let f : Field := ⟨"tags".toList, "String[]".toList, false, true, false⟩
    Field.ofLine? optionalSystemFields "tags String[[]]".toList = some f ∧ listMark <:+: f.rawType ∧
    f.declaration = "tags String[][]".toList ∧
    Field.ofLine? optionalSystemFields f.declaration = some { f with rawType := "String".toList } := by
  refine ⟨by decide +kernel, by decide, by decide, by decide +kernel⟩

end EntityScaffold.Schema
