import EntityScaffold.Proofs.SharedFile.Again
import EntityScaffold.Proofs.Text.LineCount

/-
What insertions leave is the text with a block of lines put in for each that is counted. Those that are counted were due at
their turn, and those that are warned of were lost: they had no section and no anchor, and were not there.
-/

namespace EntityScaffold

section Blocks

variable {α : Type} {x : α} {xs ys : List α} {n : Nat}

/-- A list with blocks put in, one after the other, each of which holds an item. -/
inductive WithBlocks {α : Type} (x : α) (xs : List α) : Nat → List α → Prop
  | none : WithBlocks x xs 0 xs
  | more {n : Nat} {before block after : List α} (h : WithBlocks x xs n (before ++ after)) (holds : x ∈ block) :
      WithBlocks x xs (n + 1) (before ++ (block ++ after))

namespace WithBlocks

theorem sublist (h : WithBlocks x xs n ys) : xs.Sublist ys := by
  induction h with
  | none => exact List.Sublist.refl xs
  | @more n before block after h holds ih =>
    exact ih.trans ((List.sublist_append_right block after).append_left before)

theorem count_le [DecidableEq α] (h : WithBlocks x xs n ys) : xs.count x + n ≤ ys.count x := by
  induction h with
  | none => exact Nat.le_refl _
  | @more n before block after h holds ih =>
    have once := List.count_pos_iff.2 holds
    simp only [List.count_append] at ih ⊢
    omega

theorem eq_iff (h : WithBlocks x xs n ys) : ys = xs ↔ n = 0 := by
  classical
  constructor
  · rintro rfl
    have := h.count_le
    omega
  · rintro rfl
    cases h
    rfl

end WithBlocks

/-- Blocks of lines in a text are blocks of lines in its octets. -/
theorem WithBlocks.encode {t u : Text} (h : WithBlocks '\n' t n u) : WithBlocks 10 (Utf8.encode t) n (Utf8.encode u) := by
  induction h with
  | none => exact .none
  | @more n before block after h holds ih =>
    rw [Utf8.encode_append] at ih
    rw [Utf8.encode_append, Utf8.encode_append]
    refine .more ih (List.count_pos_iff.1 ?_)
    rw [Utf8.count_encode]
    exact List.count_pos_iff.2 holds

end Blocks

namespace SharedFile

open Template (Context substitute)
open Text (cut?)

variable {context : Context} {content : Text} {i : Insertion} {s : Seam} {is : List Insertion}

theorem Enters.lineFeed_mem_block (h : Enters context content i s) : '\n' ∈ s.block := by
  have ends (indent : Text) : '\n' ∈ indented indent (substitute i.snippet context) := by
    obtain ⟨b, hb⟩ := exists_indented_eq indent (substitute i.snippet context)
    rw [hb]
    simp
  cases h with
  | intoSection there absent => exact ends _
  | @beforeAnchor before rest missing absent there =>
    -- the indentation in front of the block is no line feed
    have whole := ends (indentBefore before)
    rw [← @List.takeWhile_append_dropWhile _ isIndent (indented _ _)] at whole
    rcases List.mem_append.1 whole with blank | kept
    · exact absurd (List.mem_takeWhile_imp blank) (by decide)
    · exact List.mem_append_left _ kept

/-- An insertion that can be made: its section lacks the snippet, or, where there is no such section, the text lacks it and has
the anchor. -/
def Insertion.isDue (context : Context) (content : Text) (i : Insertion) : Bool :=
  match i.section? content with
  | some found => !present found.body (substitute i.snippet context)
  | none => !present content (substitute i.snippet context) && Text.has content (substitute i.anchor context)

/-- An insertion that cannot be made: its section is not there, nor what it would insert, nor its anchor. -/
def Insertion.isLost (context : Context) (content : Text) (i : Insertion) : Bool :=
  (i.section? content).isNone && !present content (substitute i.snippet context) &&
    !Text.has content (substitute i.anchor context)

/-- The insertions that pass a check at their turn, each in the text that those before it left. -/
def atTurn (context : Context) (content : Text) (is : List Insertion) (check : Text → Insertion → Bool) : List Insertion :=
  (is.zipIdx.filter fun (i, k) => check (applyInsertions context content (is.take k)).content i).map Prod.fst

theorem atTurn_concat (context : Context) (content : Text) (us : List Insertion) (i : Insertion)
    (check : Text → Insertion → Bool) :
    atTurn context content (us ++ [i]) check = atTurn context content us check ++
      if check (applyInsertions context content us).content i then [i] else [] := by
  have before {k : Insertion} {n : Nat} (h : (k, n) ∈ us.zipIdx) : (us ++ [i]).take n = us.take n :=
    List.take_append_of_le_length (Nat.le_of_lt (by simpa using List.snd_lt_of_mem_zipIdx h))
  have kept : us.zipIdx.filter (fun (k, n) => check (applyInsertions context content ((us ++ [i]).take n)).content k) =
      us.zipIdx.filter fun (k, n) => check (applyInsertions context content (us.take n)).content k :=
    List.filter_congr fun ⟨k, n⟩ h => by dsimp only; rw [before h]
  rw [atTurn, atTurn, List.zipIdx_append, List.filter_append, List.map_append, kept]
  congr 1
  simp only [List.zipIdx_singleton, Nat.zero_add, List.filter_singleton, List.take_left]
  cases check (applyInsertions context content us).content i <;> rfl

/-- What becomes of an insertion, by what is due and what is lost. -/
theorem splice_spec (context : Context) (content : Text) (i : Insertion) :
    match splice context content i with
    | .alreadyThere => i.isDue context content = false ∧ i.isLost context content = false
    | .inserted _ => i.isDue context content = true ∧ i.isLost context content = false
    | .anchorMissing anchor => i.isDue context content = false ∧ i.isLost context content = true ∧
        anchor = substitute i.anchor context := by
  unfold splice Insertion.isDue Insertion.isLost
  cases i.section? content with
  | some found =>
    cases there : present found.body (substitute i.snippet context) <;> simp [there]
  | none =>
    cases there : present content (substitute i.snippet context) with
    | true => simp [there]
    | false =>
      cases found : cut? (substitute i.anchor context) content <;>
        simp [there, insertBeforeAnchor?, Text.has, found]

theorem applied_next_eq (s : Spliced) (i : Insertion) : (s.next context i).applied =
    s.applied + if i.isDue context s.content then 1 else 0 := by
  have spec := splice_spec context s.content i
  unfold Spliced.next
  generalize splice context s.content i = outcome at spec ⊢
  cases outcome with
  | alreadyThere => rw [spec.1]; rfl
  | inserted content => rw [spec.1]; rfl
  | anchorMissing anchor => rw [spec.1]; rfl

theorem warnings_next_eq (s : Spliced) (i : Insertion) : (s.next context i).warnings =
    s.warnings ++ if i.isLost context s.content then [anchorWarning (substitute i.anchor context)] else [] := by
  have spec := splice_spec context s.content i
  unfold Spliced.next
  generalize splice context s.content i = outcome at spec ⊢
  cases outcome with
  | alreadyThere => rw [spec.2]; simp
  | inserted content => rw [spec.2]; simp
  | anchorMissing anchor =>
    obtain ⟨-, lost, rfl⟩ := spec
    rw [lost]
    rfl

theorem withBlocks_next (s : Spliced) (h : WithBlocks '\n' content s.applied s.content) (i : Insertion) :
    WithBlocks '\n' content (s.next context i).applied (s.next context i).content := by
  unfold Spliced.next
  rcases splice_cases context s.content i with ⟨-, idle⟩ | ⟨seam, enters, -, inserted⟩
  · cases hsplice : splice context s.content i with
    | alreadyThere => exact h
    | anchorMissing anchor => exact h
    | inserted new => exact absurd hsplice (idle new)
  · rw [inserted]
    rw [← enters.old_eq] at h
    exact .more h enters.lineFeed_mem_block

/-- Insertions only insert; what is counted is what was due at its turn, and what is warned of is what was lost. -/
theorem applyInsertions_accounts (context : Context) (content : Text) (is : List Insertion) :
    WithBlocks '\n' content (applyInsertions context content is).applied (applyInsertions context content is).content ∧
      (applyInsertions context content is).applied = (atTurn context content is (Insertion.isDue context)).length ∧
      (applyInsertions context content is).warnings =
        (atTurn context content is (Insertion.isLost context)).map fun i => anchorWarning (substitute i.anchor context) := by
  induction is using List.reverseRecOn with
  | nil => exact ⟨.none, rfl, rfl⟩
  | append_singleton us i ih =>
    obtain ⟨blocks, applied, warnings⟩ := ih
    rw [applyInsertions_concat]
    refine ⟨withBlocks_next _ blocks i, ?_, ?_⟩
    · rw [applied_next_eq, applied, atTurn_concat, List.length_append]
      congr 1
      split <;> rfl
    · rw [warnings_next_eq, warnings, atTurn_concat, List.map_append]
      congr 1
      split <;> rfl

end SharedFile

end EntityScaffold
