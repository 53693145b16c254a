import EntityScaffold.Proofs.Schema.LineReading

/-
The statements of a block: each line parted at its semicolons, unless it is a comment. A model depends on its statements
alone, and on their lines only for the numbers in its warnings.
-/

namespace EntityScaffold.Schema

open Text (IsGap isBlank strip lines)

variable {entity : Text} {optional : List Text} {l : Text}

theorem parts_ne_nil (t : Text) : parts t ≠ [] := by
  cases t with
  | nil => simp [parts]
  | cons c r =>
    rw [parts]
    split
    · simp
    · split
      · simp
      · simp

theorem parts_cons_separator {r : Text} (h : r.count '"' % 2 = 0) : parts (';' :: r) = [] :: parts r := by
  rw [parts, if_pos (by simpa using h)]

theorem parts_cons {c : Char} {r : Text} (h : ¬ (c = ';' ∧ r.count '"' % 2 = 0)) :
    parts (c :: r) = (parts r).modifyHead (c :: ·) := by
  obtain ⟨p, ps, hps⟩ := List.exists_cons_of_ne_nil (parts_ne_nil r)
  rw [parts, if_neg (by simpa using h), hps]
  rfl

theorem parts_of_noQuote {t : Text} (h : '"' ∉ t) : parts t = Text.splitAt ';' t := by
  induction t with
  | nil => rfl
  | cons c r ih =>
    obtain ⟨-, hr⟩ := not_or.1 (mt List.mem_cons.2 h)
    have even : r.count '"' % 2 = 0 := by rw [List.count_eq_zero_of_not_mem hr]
    by_cases hc : c = ';'
    · rw [hc, parts_cons_separator even, ih hr]
      simp [Text.splitAt]
    · rw [parts_cons fun h => hc h.1, ih hr]
      obtain ⟨p, ps, hps⟩ := List.exists_cons_of_ne_nil (Text.splitAt_ne_nil ';' r)
      simp [Text.splitAt, hc, hps]

theorem parts_of_not_mem (h : ';' ∉ l) : parts l = [l] := by
  induction l with
  | nil => rfl
  | cons c l ih =>
    obtain ⟨hc, hl⟩ := not_or.1 (mt List.mem_cons.2 h)
    rw [parts_cons fun h => hc h.1.symm, ih hl]
    rfl

theorem parts_append {x y last h : Text} {xs ts : List Text} (noQuote : '"' ∉ y) (hx : parts x = xs ++ [last])
    (hy : Text.splitAt ';' y = h :: ts) : parts (x ++ y) = xs ++ (last ++ h) :: ts := by
  induction x generalizing xs last with
  | nil =>
    obtain ⟨rfl, rfl⟩ : xs = [] ∧ last = [] := by
      cases xs with
      | nil => simpa [parts, eq_comm] using hx
      | cons p ps => simp [parts] at hx
    rw [List.nil_append, parts_of_noQuote noQuote, hy]
    rfl
  | cons c x ih =>
    obtain ⟨ps, p, hps⟩ : ∃ ps p, parts x = ps ++ [p] :=
      ⟨_, _, (List.dropLast_concat_getLast (parts_ne_nil x)).symm⟩
    have quotes : (x ++ y).count '"' = x.count '"' := by
      rw [List.count_append, List.count_eq_zero_of_not_mem noQuote, Nat.add_zero]
    have rest := ih hps
    by_cases hc : c = ';' ∧ x.count '"' % 2 = 0
    · obtain ⟨rfl, even⟩ := hc
      rw [parts_cons_separator even, hps, ← List.cons_append] at hx
      obtain ⟨rfl, hlast⟩ := List.append_inj' hx rfl
      obtain rfl : p = last := by simpa using hlast
      rw [List.cons_append, parts_cons_separator (quotes ▸ even), rest]
      rfl
    · rw [parts_cons hc, hps] at hx
      rw [List.cons_append, parts_cons (quotes ▸ hc), rest]
      cases ps with
      | nil =>
        obtain ⟨rfl, rfl⟩ : xs = [] ∧ last = c :: p := by
          cases xs with
          | nil => simpa [eq_comm] using hx
          | cons q qs => simp at hx
        rfl
      | cons q qs =>
        have whole : ((c :: q) :: qs) ++ [p] = xs ++ [last] := hx
        obtain ⟨rfl, hlast⟩ := List.append_inj' whole rfl
        obtain rfl : p = last := by simpa using hlast
        rfl

/-- The statements of a line, with the blanks around them: a comment is one. -/
def statementsOf (l : Text) : List Text := if IsComment l then [l] else parts l

theorem map_strip_parts_strip (l : Text) : (parts (strip l)).map strip = (parts l).map strip := by
  have before (a t : Text) (ha : IsGap a) : (parts (a ++ t)).map strip = (parts t).map strip := by
    induction a with
    | nil => rfl
    | cons c a ih =>
      have hc := ha c List.mem_cons_self
      have rest := ih fun d hd => ha d (List.mem_cons_of_mem c hd)
      have blank : c ≠ ';' := by
        rintro rfl
        exact absurd hc (by decide)
      obtain ⟨p, ps, hps⟩ := List.exists_cons_of_ne_nil (parts_ne_nil (a ++ t))
      rw [← rest, List.cons_append, parts_cons fun h => blank h.1, hps]
      have stripped : strip (c :: p) = strip p := Text.strip_gap_append (a := [c]) (by simpa [IsGap] using hc) p
      simp [stripped]
  have after (s b : Text) (hb : IsGap b) : (parts (s ++ b)).map strip = (parts s).map strip := by
    obtain ⟨xs, last, hxs⟩ : ∃ xs last, parts s = xs ++ [last] :=
      ⟨_, _, (List.dropLast_concat_getLast (parts_ne_nil s)).symm⟩
    have noQuote : '"' ∉ b := fun h => absurd (hb _ h) (by decide)
    have noSemicolon : ';' ∉ b := fun h => absurd (hb _ h) (by decide)
    rw [parts_append noQuote hxs (Text.splitAt_of_not_mem noSemicolon), hxs]
    simp [Text.strip_append_gap hb]
  obtain ⟨a, b, ha, hb, hl⟩ := Text.exists_eq_gap_strip l
  calc (parts (strip l)).map strip = (parts (a ++ (strip l ++ b))).map strip := by rw [before _ _ ha, after _ _ hb]
    _ = (parts l).map strip := by rw [← hl]

theorem logicalLines_eq_map (l : Text) : logicalLines l = (statementsOf l).map strip := by
  rw [logicalLines_eq, statementsOf]
  by_cases h : IsComment l
  · rw [if_pos h, if_pos (List.isPrefixOf_iff_prefix.2 h)]
    rfl
  · rw [if_neg h, if_neg (mt List.isPrefixOf_iff_prefix.1 h), map_strip_parts_strip]

/-- The statements of a body, each with the number of its line. -/
def numberedStatements (ls : List Text) : List (Text × Nat) :=
  (ls.zipIdx 1).flatMap fun p => (statementsOf p.1).map fun t => (t, p.2)

theorem readLines_eq (optional : List Text) (body : Text) : readLines optional body =
    (numberedStatements (lines body)).map fun p => (p.2, Line.ofText optional (strip p.1)) := by
  rw [readLines, numberedLines, numberedStatements, List.map_flatMap, List.map_flatMap]
  refine List.flatMap_congr fun p _ => ?_
  rw [logicalLines_eq_map, List.map_map, List.map_map, List.map_map]
  rfl

theorem statementsOf_of_not_mem (h : ';' ∉ l) : statementsOf l = [l] := by
  rw [statementsOf, parts_of_not_mem h, ite_self]

theorem numberedStatements_of_not_mem {ls : List Text} (h : ∀ l ∈ ls, ';' ∉ l) : numberedStatements ls = ls.zipIdx 1 := by
  have single : ∀ p ∈ ls.zipIdx 1, (statementsOf p.1).map (fun t => (t, p.2)) = [p] := by
    intro p hp
    rw [statementsOf_of_not_mem (h p.1 (List.fst_mem_of_mem_zipIdx hp))]
    rfl
  rw [numberedStatements, List.flatMap_congr single, List.flatMap_singleton']

/-- What a body's statements declare is its model. -/
theorem modelOfBody_eq (entity : Text) (optional : List Text) (body : Text) :
    modelOfBody entity optional body = modelOf entity optional (numberedStatements (lines body)) := by
  obtain ⟨fields, warnings⟩ := model_of_lines entity optional (numberedStatements (lines body))
  simp only [modelOfBody, readLines_eq, fields, warnings]
  rfl

def own (ss : List Text) : List Text := (ss.takeWhile fun s => ¬ IsMark s).filter fun s => IsOwn s

theorem own_cons (u : Text) (us : List Text) :
    own (u :: us) = if IsMark u then [] else if IsOwn u then u :: own us else own us := by
  by_cases hmark : IsMark u
  · simp [own, hmark]
  · by_cases hown : IsOwn u
    · simp [own, hmark, hown]
    · simp [own, hmark, hown]

theorem own_append_of_isMark {us : List Text} (mark : ∃ s ∈ us, IsMark s) (vs : List Text) : own (us ++ vs) = own us := by
  induction us with
  | nil => simp at mark
  | cons u us ih =>
    rw [List.cons_append, own_cons, own_cons]
    by_cases hmark : IsMark u
    · rw [if_pos hmark, if_pos hmark]
    · rw [ih (by simpa [hmark] using mark)]

theorem own_append {us : List Text} (noMark : ∀ s ∈ us, ¬ IsMark s) (vs : List Text) :
    own (us ++ vs) = own us ++ own vs := by
  induction us with
  | nil => rfl
  | cons u us ih =>
    obtain ⟨hu, hus⟩ := List.forall_mem_cons.1 noMark
    rw [List.cons_append, own_cons, own_cons, if_neg hu, if_neg hu, ih hus]
    by_cases hown : IsOwn u
    · rw [if_pos hown, if_pos hown, List.cons_append]
    · rw [if_neg hown, if_neg hown]

theorem map_fst_ownOf (ls : List (Text × Nat)) : (ownOf ls).map (·.1) = own (ls.map (·.1)) := by
  rw [own, List.takeWhile_map, List.filter_map]
  rfl

theorem map_fst_numberedStatements (ls : List Text) :
    (numberedStatements ls).map (·.1) = ls.flatMap statementsOf := by
  have unnumbered : (ls.zipIdx 1).flatMap (fun p => statementsOf p.1) = ls.flatMap statementsOf := by
    rw [← List.flatMap_map, List.zipIdx_map_fst]
  rw [← unnumbered, numberedStatements, List.map_flatMap]
  refine List.flatMap_congr fun p _ => ?_
  rw [List.map_map]
  exact List.map_id _

def given (optional : List Text) (ss : List Text) : List Field := ss.filterMap (Field.ofLine? optional)

def lost (optional : List Text) (ss : List Text) : Nat := ss.countP fun s => (Field.ofLine? optional s).isNone

theorem fields_eq_given (entity : Text) (optional : List Text) (body : Text) :
    (modelOfBody entity optional body).fields = given optional (own ((lines body).flatMap statementsOf)) := by
  rw [modelOfBody_eq, modelOf, given, ← map_fst_numberedStatements, ← map_fst_ownOf, List.filterMap_map]
  rfl

theorem length_warnings_eq_lost (entity : Text) (optional : List Text) (body : Text) :
    (modelOfBody entity optional body).warnings.length = lost optional (own ((lines body).flatMap statementsOf)) := by
  rw [modelOfBody_eq, modelOf, lost, ← map_fst_numberedStatements, ← map_fst_ownOf, List.countP_map, List.length_map,
    List.countP_eq_length_filter]
  rfl

end EntityScaffold.Schema
