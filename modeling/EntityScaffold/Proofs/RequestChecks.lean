import EntityScaffold.Proofs.Schema.Canonical
import EntityScaffold.Proofs.Naming
import EntityScaffold.Proofs.Text.LetterCase
import EntityScaffold.Proofs.Text.Lines
import EntityScaffold.RequestChecks

/-
The names that a uniqueness check binds in its function: the parameter for the value, what is taken out of the request, and
the constant for the record that is looked up. They are read off the text of the check, line by line.
-/

namespace EntityScaffold

namespace Text

theorem lowerChar_ne_nil (c : Char) : lowerChar c ≠ [] := by
  intro h
  have form := lowerForm_lowerChar c
  rw [h] at form
  cases form

end Text

namespace RequestChecks

open Naming (Identifier lowerCamel)
open Schema (Field Model model?)
open Text (isBlank words lines)

variable {l x : Text} {e : Identifier}

/-- The names that parameters bind, by the words between the parentheses: a member that is taken out of an object stands in
braces, and after any other name comes a comma or the closing parenthesis. -/
def parameterNames : List Text → List Text
  | ['\x7b'] :: n :: _ :: ws => n :: parameterNames ws
  | w :: ws => w.dropLast :: parameterNames ws
  | [] => []

/-- The names that a line of a function binds, by its words: its parameters in the line that opens it, or the constant that
the line declares. -/
def namesIn (l : Text) : List Text :=
  match words l with
  | opening :: w :: ws =>
    if opening = ".custom(async".toList then parameterNames (w.drop 1 :: ws.takeWhile (· ≠ "=>".toList))
    else if opening = "const".toList then (if w = ['\x7b'] then ws.take 1 else [w])
    else []
  | _ => []

/-- The names that a function binds, in the order of its lines. -/
def boundNames (function : Text) : List Text := (lines function).flatMap namesIn

theorem words_append_space (x y : Text) : words (x ++ ' ' :: y) = words x ++ words y :=
  Text.words_append_cons (by decide) x y

theorem namesIn_of_opening {s y w : Text} (opening : s = x ++ ' ' :: y) (first : words x = [w])
    (noFunction : w ≠ ".custom(async".toList) (noConstant : w ≠ "const".toList) (n t : Text) :
    namesIn (s ++ n ++ t) = [] := by
  have line : words (s ++ n ++ t) = w :: words (y ++ (n ++ t)) := by
    have regrouped : s ++ n ++ t = x ++ ' ' :: (y ++ (n ++ t)) := by simp [opening]
    rw [regrouped, words_append_space, first, List.singleton_append]
  rw [namesIn, line]
  cases words (y ++ (n ++ t)) with
  | nil => rfl
  | cons v vs => exact (if_neg noFunction).trans (if_neg noConstant)

structure IsName (n : Text) : Prop where
  nonempty : n ≠ []
  noBlank : ∀ c ∈ n, isBlank c = false

theorem IsName.not_mem_of_isBlank {n : Text} (h : IsName n) {c : Char} (hc : isBlank c = true) : c ∉ n := fun mem =>
  absurd hc (by simp [h.noBlank c mem])

theorem isName_lowerCamel (e : Identifier) : IsName (lowerCamel e.name) := by
  constructor
  · have starts := e.starts
    cases hn : e.name with
    | nil => simp [hn] at starts
    | cons c r => simp [lowerCamel, Text.lowerChar_ne_nil]
  · intro c hc
    exact Naming.isBlank_eq_false_of_isAddressChar
      (Naming.isAddressChar_of_isWordChar (Naming.isWordChar_of_mem_lowerCamel e hc))

theorem isName_name (e : Identifier) : IsName e.name := by
  constructor
  · have starts := e.starts
    rintro h
    simp [h] at starts
  · intro c hc
    exact Naming.isBlank_eq_false_of_isAddressChar (Naming.isAddressChar_of_isWordChar (List.all_eq_true.1 e.word c hc))

theorem isName_of_mem_fields {schema entity : Text} {optional : List Text} {m : Model} {f : Field}
    (extracted : model? schema entity optional = some m) (hf : f ∈ m.fields) : IsName f.name := by
  obtain ⟨body, -, rfl⟩ := Option.map_eq_some_iff.1 extracted
  rw [Schema.fields_eq_given, Schema.given] at hf
  obtain ⟨line, -, read⟩ := List.mem_filterMap.1 hf
  obtain ⟨token, attributes, hwords, -⟩ := Schema.Field.ofLine?_eq_some read
  have mem : f.name ∈ words line := by simp [hwords]
  exact ⟨Text.ne_nil_of_mem_words mem, Text.isBlank_of_mem_words mem⟩

/-- The names that are bound in a uniqueness check, in the order in which they stand in it. -/
def scope (purpose : Purpose) (entity field : Text) : List Text :=
  match purpose with
  | .create => [field, lowerCamel entity]
  | .update => [field, "req".toList, "id".toList, lowerCamel entity]

theorem words_around {n a b y : Text} {ws vs : List Text} (h : IsName n) (noBlank : ∀ c ∈ a ++ b, isBlank c = false)
    (parted : l = x ++ ' ' :: (a ++ (n ++ (b ++ ' ' :: y)))) (before : words x = ws) (after : words y = vs) :
    words l = ws ++ (a ++ (n ++ b)) :: vs := by
  have word : words (a ++ (n ++ b)) = [a ++ (n ++ b)] := by
    refine Text.words_of_word (by simp [h.nonempty]) fun c hc => ?_
    simp only [List.mem_append] at hc
    rcases hc with hc | hc | hc
    · exact noBlank c (List.mem_append_left b hc)
    · exact h.noBlank c hc
    · exact noBlank c (List.mem_append_right a hc)
  have regrouped : l = x ++ ' ' :: ((a ++ (n ++ b)) ++ ' ' :: y) := by simp [parted]
  rw [regrouped, words_append_space, words_append_space, word, before, after, List.singleton_append]

theorem parameterNames_concat {n : Text} (h : n ≠ []) (c : Char) (ws : List Text) :
    parameterNames ((n ++ [c]) :: ws) = n :: parameterNames ws := by
  have longer : n ++ [c] ≠ ['\x7b'] := by
    have parted : n ++ [c] = [] ++ ['\x7b'] → n = [] := fun same => (List.append_inj' same rfl).1
    exact fun same => h (parted same)
  rw [parameterNames, List.dropLast_concat]
  exact fun _ _ _ same _ => longer same

theorem namesIn_function {w : Text} {ws : List Text} (h : words l = ".custom(async".toList :: w :: ws) :
    namesIn l = parameterNames (w.drop 1 :: ws.takeWhile (· ≠ "=>".toList)) := by
  rw [namesIn, h]
  exact if_pos rfl

theorem namesIn_constant {w : Text} {ws : List Text} (h : words l = "const".toList :: w :: ws) (plain : w ≠ ['\x7b']) :
    namesIn l = [w] := by
  rw [namesIn, h]
  exact (if_neg (by decide)).trans ((if_pos rfl).trans (if_neg plain))

section Lines

variable {field record : Text} (hf : IsName field) (hr : IsName record)

include hf in
theorem namesIn_create : namesIn (".custom(async (".toList ++ field ++ ") => \x7b".toList) = [field] := by
  have line : words (".custom(async (".toList ++ field ++ ") => \x7b".toList) =
      [".custom(async".toList] ++ (['('] ++ (field ++ [')'])) :: ["=>".toList, "\x7b".toList] :=
    words_around (x := ".custom(async".toList) (y := "=> \x7b".toList) hf (by decide) (by simp) (by decide) (by decide)
  exact (namesIn_function line).trans (parameterNames_concat hf.nonempty ')' [])

include hf in
theorem namesIn_update :
    namesIn (".custom(async (".toList ++ field ++ ", \x7b req \x7d) => \x7b".toList) = [field, "req".toList] := by
  have line : words (".custom(async (".toList ++ field ++ ", \x7b req \x7d) => \x7b".toList) =
      [".custom(async".toList] ++ (['('] ++ (field ++ [','])) ::
        ["\x7b".toList, "req".toList, "\x7d)".toList, "=>".toList, "\x7b".toList] :=
    words_around (x := ".custom(async".toList) (y := "\x7b req \x7d) => \x7b".toList) hf (by decide) (by simp) (by decide)
      (by decide)
  exact (namesIn_function line).trans
    (parameterNames_concat hf.nonempty ',' ["\x7b".toList, "req".toList, "\x7d)".toList])

include hr in
theorem namesIn_record (plain : record ≠ ['\x7b']) :
    namesIn ("              const ".toList ++ record ++ " = await prisma.".toList ++ record ++ ".findUnique(\x7b".toList) =
      [record] := by
  let lookup := "= await prisma.".toList ++ record ++ ".findUnique(\x7b".toList
  have line : words ("              const ".toList ++ record ++ " = await prisma.".toList ++ record ++
      ".findUnique(\x7b".toList) = ["const".toList] ++ ([] ++ (record ++ [])) :: words lookup :=
    words_around (x := "              const".toList) hr (by decide) (by simp [lookup]) (by decide) rfl
  rw [List.nil_append, List.append_nil] at line
  exact namesIn_constant line plain

end Lines

theorem not_mem_of_mem_uniqueLines {purpose : Purpose} {field line : Text} (hf : IsName field)
    (h : line ∈ uniqueLines purpose e.name field) : '\n' ∉ line := by
  have record := (isName_lowerCamel e).not_mem_of_isBlank (c := '\n') (by decide)
  have own := hf.not_mem_of_isBlank (c := '\n') (by decide)
  have notCapital : ¬ Text.IsCapital '\n' := by
    unfold Text.IsCapital
    decide
  have inKey {n : Text} (hn : IsName n) : '\n' ∉ Naming.upperKey n := fun mem =>
    hn.not_mem_of_isBlank (by decide) (Text.mem_of_mem_upper mem notCapital (by decide))
  have framed {s n t : Text} (hs : '\n' ∉ s) (hn : '\n' ∉ n) (ht : '\n' ∉ t) : '\n' ∉ s ++ n ++ t := by
    simp [hs, hn, ht]
  have key : '\n' ∉ messageKey e.name field "MUST_BE_UNIQUE".toList :=
    framed (List.not_mem_append (framed (by decide) (inKey (isName_name e)) (by decide)) (inKey hf)) (by decide) (by decide)
  unfold uniqueLines at h
  rcases List.mem_append.1 h with opening | h
  · cases purpose with
    | create =>
      rw [List.mem_singleton.1 opening]
      exact framed (by decide) own (by decide)
    | update =>
      simp only [List.mem_cons, List.not_mem_nil, or_false] at opening
      rcases opening with rfl | rfl
      · exact framed (by decide) own (by decide)
      · decide
  · simp only [List.mem_cons, List.not_mem_nil, or_false] at h
    rcases h with rfl | rfl | rfl | rfl | rfl | rfl | rfl | rfl
    · exact framed (framed (by decide) record (by decide)) record (by decide)
    · exact framed (by decide) own (by decide)
    · decide
    · refine framed (by decide) ?_ (by decide)
      cases purpose with
      | create => exact record
      | update => exact framed (List.not_mem_append record (by decide)) record (by decide)
    · exact framed (by decide) key (by decide)
    · decide
    · decide
    · decide

theorem boundNames_uniqueLines (purpose : Purpose) {field : Text} (hf : IsName field) (e : Identifier) :
    boundNames (Text.joinWith ['\n'] (uniqueLines purpose e.name field)) = scope purpose e.name field := by
  have broken : lines (Text.joinWith ['\n'] (uniqueLines purpose e.name field)) = uniqueLines purpose e.name field :=
    Text.splitAt_joinWith (by simp [uniqueLines]) fun line hline => not_mem_of_mem_uniqueLines hf hline
  have compared : namesIn ("                  where: \x7b ".toList ++ field ++ " \x7d,".toList) = [] :=
    namesIn_of_opening (x := "                  where:".toList) (y := "\x7b ".toList) (w := "where:".toList) rfl
      (by decide) (by decide) (by decide) field " \x7d,".toList
  have tested (taken : Text) : namesIn ("              if (".toList ++ taken ++ ") \x7b".toList) = [] :=
    namesIn_of_opening (x := "              if".toList) (y := "(".toList) (w := "if".toList) rfl
      (by decide) (by decide) (by decide) taken ") \x7b".toList
  have refused (key : Text) : namesIn ("                  throw new Error(i18n.__('".toList ++ key ++ "'));".toList) = [] :=
    namesIn_of_opening (x := "                  throw".toList) (y := "new Error(i18n.__('".toList) (w := "throw".toList) rfl
      (by decide) (by decide) (by decide) key "'));".toList
  have closing : namesIn "              \x7d);".toList = [] ∧ namesIn "              \x7d".toList = [] ∧
      namesIn "              return true;".toList = [] ∧ namesIn "          \x7d)".toList = [] := by decide
  have record : lowerCamel e.name ≠ ['\x7b'] := by
    intro same
    exact absurd (Naming.isWordChar_of_mem_lowerCamel e (c := '\x7b') (by simp [same])) (by decide)
  rw [boundNames, broken]
  cases purpose with
  | create =>
    simp only [uniqueLines, List.flatMap_append, List.flatMap_cons, List.flatMap_nil, namesIn_create hf,
      namesIn_record (isName_lowerCamel e) record, compared, tested, refused, closing]
    rfl
  | update =>
    have destructured : namesIn "              const \x7b id \x7d: any = req.params;".toList = ["id".toList] := by decide
    simp only [uniqueLines, List.flatMap_append, List.flatMap_cons, List.flatMap_nil, namesIn_update hf, destructured,
      namesIn_record (isName_lowerCamel e) record, compared, tested, refused, closing]
    rfl

theorem scope_nodup_iff (purpose : Purpose) (entity field : Text) :
    (scope purpose entity field).Nodup ↔ field ≠ lowerCamel entity ∧
      (purpose = .update → ∀ n ∈ ["req".toList, "id".toList], field ≠ n ∧ lowerCamel entity ≠ n) := by
  cases purpose with
  | create => simp [scope]
  | update =>
    have apart : "req".toList ≠ "id".toList := by decide
    simp only [scope, List.nodup_cons, List.forall_mem_cons]
    grind

/-- A unique field of a schema's model has a check that binds the names of its scope. No name is bound twice there if and
only if the field is not called like the record that is looked up and, where a record is updated, neither of the two is
called like a member that is taken out of the request. -/
theorem boundNames_nodup_iff {schema : Text} {optional system : List Text} {m : Model} {f : Field}
    (extracted : model? schema e.name optional = some m) (listed : f ∈ m.editable system) (unique : f.isUnique = true)
    (purpose : Purpose) :
    ∃ check, uniqueCheck? purpose m.entity f = some check ∧ boundNames check = scope purpose e.name f.name ∧
      ((boundNames check).Nodup ↔ f.name ≠ lowerCamel e.name ∧
        (purpose = .update → ∀ n ∈ ["req".toList, "id".toList], f.name ≠ n ∧ lowerCamel e.name ≠ n)) := by
  have entity : m.entity = e.name := by
    obtain ⟨body, -, rfl⟩ := Option.map_eq_some_iff.1 extracted
    rfl
  have named : IsName f.name := isName_of_mem_fields extracted (List.mem_of_mem_filter listed)
  have bound := boundNames_uniqueLines purpose named e
  refine ⟨_, ?_, bound, ?_⟩
  · rw [uniqueCheck?, if_pos unique, entity]
  · rw [bound]
    exact scope_nodup_iff purpose e.name f.name

def emailSchema (entity : Text) : Text :=
  "model ".toList ++ entity ++ " \x7b\n  email String @unique\n\x7d\n".toList

def emailField : Field := { name := "email".toList, rawType := "String".toList, isUnique := true }

theorem boundNames_nodup_iff_customer :
    model? (emailSchema "Customer".toList) "Customer".toList [] = some ⟨"Customer".toList, [emailField], []⟩ ∧
    ∃ check, uniqueCheck? .update "Customer".toList emailField = some check ∧
      boundNames check = ["email".toList, "req".toList, "id".toList, "customer".toList] ∧ (boundNames check).Nodup := by
  have extracted : model? (emailSchema "Customer".toList) "Customer".toList [] =
      some ⟨"Customer".toList, [emailField], []⟩ := by decide +kernel
  have listed : emailField ∈ Model.editable ⟨"Customer".toList, [emailField], []⟩ Schema.systemFields := by decide
  obtain ⟨check, made, bound, distinct⟩ :=
    boundNames_nodup_iff (e := ⟨"Customer".toList, by decide, by decide⟩) extracted listed rfl .update
  exact ⟨extracted, check, made, bound, distinct.2 (by decide)⟩

/-- The parameter of a field that is called like its entity has the name of the constant for the record. -/
theorem boundNames_emailOfEmail :
    model? (emailSchema "Email".toList) "Email".toList Schema.optionalSystemFields =
      some ⟨"Email".toList, [emailField], []⟩ ∧
    emailField ∈ Model.editable ⟨"Email".toList, [emailField], []⟩ Schema.systemFields ∧
    ∃ check, uniqueCheck? .create "Email".toList emailField = some check ∧
      boundNames check = ["email".toList, "email".toList] ∧ ¬ (boundNames check).Nodup := by
  refine ⟨by decide +kernel, by decide, _, rfl, ?_⟩
  have bound : boundNames (Text.joinWith ['\n'] (uniqueLines .create "Email".toList emailField.name)) =
      ["email".toList, "email".toList] := by decide +kernel
  refine ⟨bound, ?_⟩
  rw [bound]
  decide

end RequestChecks

end EntityScaffold
