import EntityScaffold.Proofs.SharedFile.Characters
import EntityScaffold.Proofs.SharedFile.Complete
import EntityScaffold.Proofs.SharedFile.Seam
import EntityScaffold.Proofs.SharedFile.Snippet

/-
The same insertions made once more, in the text that they left. Nothing is inserted again unless one insertion undid another
or itself: it cut a line, brought an anchor, or made another section found.
-/

namespace EntityScaffold.SharedFile

open Template (Context substitute)
open Text (Straddles cut?)

variable {context : Context} {content new : Text} {i k : Insertion} {s : Seam} {is us : List Insertion}

/-- What an insertion finds of its section. -/
def Insertion.body? (i : Insertion) (content : Text) : Option Text :=
  match i.sectionName with
  | none => none
  | some name => if name.isEmpty then none else SharedFile.body? content name

theorem Insertion.body?_eq (i : Insertion) (content : Text) : i.body? content = (i.section? content).map (·.body) := by
  unfold Insertion.body? Insertion.section?
  cases i.sectionName with
  | none => rfl
  | some name =>
    dsimp only
    split <;> rfl

def Insertion.lines (context : Context) (i : Insertion) : List Text := visibleLines (substitute i.snippet context)

/-- Nothing is left to insert: the insertion's section holds its snippet; or there is no such section, and the text holds the
snippet or lacks the anchor. -/
def Insertion.IsSettledIn (context : Context) (i : Insertion) (content : Text) : Prop :=
  match i.body? content with
  | some body => present body (substitute i.snippet context) = true
  | none => present content (substitute i.snippet context) = true ∨ ¬ substitute i.anchor context <:+: content

/-- The indentation of an anchor that is the first text on its line. -/
def indentBefore (before : Text) : Text :=
  if (Text.strip (lastLineSplit before).2).isEmpty then (lastLineSplit before).2 else []

/-- The seam at which an insertion enters a text that does not hold its snippet yet. -/
inductive Enters (context : Context) (content : Text) (i : Insertion) : Seam → Prop
  | intoSection {found : Section} (there : i.section? content = some found)
      (absent : present found.body (substitute i.snippet context) = false) :
    Enters context content i
      (Seam.atEnd found (indented (found.after.takeWhile isIndent) (substitute i.snippet context)))
  | beforeAnchor {before rest : Text} (missing : i.section? content = none)
      (absent : present content (substitute i.snippet context) = false)
      (there : cut? (substitute i.anchor context) content = some (before, rest)) :
    Enters context content i ⟨before, (indented (indentBefore before) (substitute i.snippet context)).dropWhile isIndent ++
      indentBefore before, rest⟩

theorem Enters.old_eq (h : Enters context content i s) : s.old = content := by
  cases h with
  | intoSection there absent => exact Insertion.append_of_section? there
  | beforeAnchor missing absent there => exact Text.append_of_cut? there

/-- An insertion that is not made is settled, and one that is made enters at a seam and was not settled. -/
theorem splice_cases (context : Context) (content : Text) (i : Insertion) :
    (i.IsSettledIn context content ∧ ∀ new, splice context content i ≠ .inserted new) ∨
      ∃ s, Enters context content i s ∧ ¬ i.IsSettledIn context content ∧ splice context content i = .inserted s.new := by
  unfold Insertion.IsSettledIn splice
  rw [Insertion.body?_eq]
  cases hsection : i.section? content with
  | some found =>
    cases there : present found.body (substitute i.snippet context) with
    | true => exact Or.inl (by simp [there])
    | false =>
      refine Or.inr ⟨_, .intoSection hsection there, by simp [there], ?_⟩
      simp [there, Section.append, Seam.new, Seam.atEnd]
  | none =>
    cases there : present content (substitute i.snippet context) with
    | true => exact Or.inl (by simp [there])
    | false =>
      cases hcut : cut? (substitute i.anchor context) content with
      | none => exact Or.inl (by simp [there, insertBeforeAnchor?, hcut, Text.cut?_eq_none_iff.1 hcut])
      | some p =>
        have unsettled : ¬ (false = true ∨ ¬ substitute i.anchor context <:+: content) := by simp [Text.infix_of_cut? hcut]
        refine Or.inr ⟨_, .beforeAnchor hsection there hcut, unsettled, ?_⟩
        simp only [there, insertBeforeAnchor?, hcut]
        simp [Seam.new, indentBefore]

/-- The seam makes another section found for an insertion. -/
def Seam.MisleadsTo (s : Seam) (i : Insertion) : Prop := ∃ name, i.sectionName = some name ∧ name ≠ [] ∧ s.Misleads name

/-- The seam undoes an insertion. -/
inductive Seam.Undoes (s : Seam) (context : Context) (k : Insertion) : Prop
  /-- Another section is found. -/
  | misleads (h : s.MisleadsTo k)
  /-- A line of the snippet is cut. -/
  | cuts {l : Text} (line : l ∈ k.lines context) (across : Straddles l s.before s.after)
  /-- The anchor was missing and arrives, but not the snippet. -/
  | supplies (missing : ¬ substitute k.anchor context <:+: s.old) (there : substitute k.anchor context <:+: s.new)
      (absent : present s.new (substitute k.snippet context) = false)

theorem Seam.keeps_insertionBody? (misleads : ¬ s.MisleadsTo k) : s.Keeps (k.body? s.old) (k.body? s.new) := by
  unfold Insertion.body?
  cases hname : k.sectionName with
  | none => exact s.keeps_refl none
  | some name =>
    dsimp only
    split
    · exact s.keeps_refl none
    · next nonempty =>
      exact s.keeps_body? fun h => misleads ⟨name, hname, by simpa using nonempty, h⟩

/-- Lines that the seam does not cut stay in the text. -/
theorem Seam.infix_new {l : Text} (hl : l ≠ []) (across : ¬ Straddles l s.before s.after) (inside : l <:+: s.old) :
    l <:+: s.new := by
  rcases (Text.infix_append_iff hl across).1 inside with h | h
  · exact h.trans (List.prefix_append _ _).isInfix
  · exact h.trans ⟨s.before ++ s.block, [], by simp [Seam.new]⟩

theorem infix_of_body? {body : Text} (h : body ∈ k.body? content) : body <:+: content := by
  rw [Insertion.body?_eq] at h
  obtain ⟨found, hfound, rfl⟩ := Option.map_eq_some_iff.1 h
  exact ⟨found.before, found.after, Insertion.append_of_section? hfound⟩

theorem Insertion.IsSettledIn.kept (settled : k.IsSettledIn context s.old) (undone : ¬ s.Undoes context k) :
    k.IsSettledIn context s.new := by
  have keeps := Seam.keeps_insertionBody? fun h => undone (.misleads h)
  have whole (l : Text) (hl : l ∈ k.lines context) : ¬ Straddles l s.before s.after := fun h => undone (.cuts hl h)
  have nonempty (l : Text) (hl : l ∈ k.lines context) : l ≠ [] := (isVisible_of_mem hl).ne_nil
  unfold Insertion.IsSettledIn at settled ⊢
  cases hnew : k.body? s.new with
  | some body =>
    obtain ⟨body', hold, kept⟩ := keeps body hnew
    rw [hold] at settled
    obtain ⟨some, there⟩ := present_iff.1 settled
    exact present_iff.2 ⟨some, fun l hl => kept l (nonempty l hl) (there l hl) (whole l hl)⟩
  | none =>
    by_cases there : present s.new (substitute k.snippet context) = true
    · exact Or.inl there
    · have absent : ∀ body, present body (substitute k.snippet context) = true → ¬ body <:+: s.old := by
        intro body hbody inside
        obtain ⟨some, hl⟩ := present_iff.1 hbody
        refine there (present_iff.2 ⟨some, fun l hmem => ?_⟩)
        exact Seam.infix_new (nonempty l hmem) (whole l hmem) ((hl l hmem).trans inside)
      cases hold : k.body? s.old with
      | some body =>
        rw [hold] at settled
        exact absurd (infix_of_body? hold) (absent body settled)
      | none =>
        rw [hold] at settled
        have missing := settled.resolve_left fun h => absent s.old h List.infix_rfl
        exact Or.inr fun arrives => undone (.supplies missing arrives (by simpa using there))

/-- An insertion that is made is settled then, unless its seam makes another section found for it. -/
theorem Enters.isSettledIn_new (h : Enters context content i s) (visible : i.lines context ≠ []) (misleads : ¬ s.MisleadsTo i) :
    i.IsSettledIn context s.new := by
  have block : ∀ l ∈ i.lines context, l <:+: s.block := by
    intro l hl
    have shown := isVisible_of_mem hl
    cases h with
    | intoSection there absent => exact shown.infix_indented _
    | beforeAnchor missing absent there =>
      exact (shown.infix_dropWhile (shown.infix_indented _)).trans (List.prefix_append _ _).isInfix
  have inBlock {t : Text} (ht : s.block <:+: t) : present t (substitute i.snippet context) = true :=
    present_iff.2 ⟨visible, fun l hl => (block l hl).trans ht⟩
  unfold Insertion.IsSettledIn
  cases hnew : i.body? s.new with
  | none => exact Or.inl (inBlock ⟨s.before, s.after, by simp [Seam.new]⟩)
  | some body =>
    obtain ⟨body', hold, -⟩ := Seam.keeps_insertionBody? misleads body hnew
    cases h with
    | beforeAnchor missing absent there =>
      have none : i.body? content = none := by rw [Insertion.body?_eq, missing]; rfl
      rw [← Text.append_of_cut? there] at none
      exact absurd hold (by simp [Seam.old, none])
    | @intoSection found there absent =>
      obtain ⟨b, hb⟩ := exists_indented_eq (found.after.takeWhile isIndent) (substitute i.snippet context)
      simp only [hb] at hnew misleads inBlock
      cases hname : i.sectionName with
      | none => simp [Insertion.body?, hname] at hnew
      | some name =>
        cases empty : name.isEmpty with
        | true => simp [Insertion.body?, hname, empty] at hnew
        | false =>
          simp only [Insertion.body?, Insertion.section?, hname, empty] at hnew there
          exact inBlock (Seam.block_infix_body there (fun h => misleads ⟨name, hname, by simpa using empty, h⟩) body hnew)

/-- The text that insertions left is left as it is by the next ones exactly when these are settled in it. -/
theorem foldl_idle_iff (s : Spliced) :
    ((is.foldl (Spliced.next context) s).content = s.content ∧ (is.foldl (Spliced.next context) s).applied = s.applied) ↔
      ∀ i ∈ is, i.IsSettledIn context s.content := by
  induction is generalizing s with
  | nil => simp
  | cons i is ih =>
    rw [List.foldl_cons, List.forall_mem_cons]
    rcases splice_cases context s.content i with ⟨settled, quiet⟩ | ⟨seam, -, unsettled, made⟩
    · have same : (s.next context i).content = s.content ∧ (s.next context i).applied = s.applied := by
        unfold Spliced.next
        cases hsplice : splice context s.content i with
        | alreadyThere => exact ⟨rfl, rfl⟩
        | anchorMissing anchor => exact ⟨rfl, rfl⟩
        | inserted new => exact absurd hsplice (quiet new)
      have rest := ih (s.next context i)
      rw [same.1, same.2] at rest
      rw [rest]
      exact (and_iff_right settled).symm
    · have more : (s.next context i).applied = s.applied + 1 := by rw [Spliced.next, made]
      have least := (content_of_applied context is (s.next context i)).1
      constructor
      · rintro ⟨-, applied⟩
        omega
      · exact fun h => absurd h.1 unsettled

theorem applyInsertions_concat (context : Context) (content : Text) (us : List Insertion) (i : Insertion) :
    applyInsertions context content (us ++ [i]) = (applyInsertions context content us).next context i := by
  rw [applyInsertions, List.foldl_append]
  rfl

/-- An insertion that undid one before it, or itself. -/
def Culprit (context : Context) (content : Text) (is : List Insertion) : Prop :=
  ∃ us i vs s, is = us ++ i :: vs ∧ Enters context (applyInsertions context content us).content i s ∧
    (s.MisleadsTo i ∨ ∃ k ∈ us, s.Undoes context k)

/-- Insertions one after the other are all settled in the end, unless one of them undid another or itself. -/
theorem isSettledIn_of_innocent (visible : ∀ i ∈ is, i.lines context ≠ []) (innocent : ¬ Culprit context content is) :
    ∀ i ∈ is, i.IsSettledIn context (applyInsertions context content is).content := by
  suffices prefixes : ∀ us, us <+: is → ∀ i ∈ us, i.IsSettledIn context (applyInsertions context content us).content from
    prefixes is (List.prefix_refl is)
  intro us
  induction us using List.reverseRecOn with
  | nil => simp
  | append_singleton us i ih =>
    rintro ⟨vs, hvs⟩
    have parts : is = us ++ i :: vs := by rw [← hvs, List.append_assoc, List.singleton_append]
    have before := ih ⟨i :: vs, parts.symm⟩
    rw [applyInsertions_concat, Spliced.next]
    rcases splice_cases context (applyInsertions context content us).content i with ⟨settled, quiet⟩ | ⟨s, enters, -, made⟩
    · have all : ∀ k ∈ us ++ [i], k.IsSettledIn context (applyInsertions context content us).content := by
        intro k hk
        rcases List.mem_append.1 hk with hk | hk
        · exact before k hk
        · rwa [List.mem_singleton.1 hk]
      cases hsplice : splice context (applyInsertions context content us).content i with
      | alreadyThere => exact all
      | anchorMissing anchor => exact all
      | inserted new => exact absurd hsplice (quiet new)
    · rw [made]
      intro k hk
      rcases List.mem_append.1 hk with hk | hk
      · refine Insertion.IsSettledIn.kept (s := s) ?_ fun undone =>
          innocent ⟨us, i, vs, s, parts, enters, Or.inr ⟨k, hk, undone⟩⟩
        rw [enters.old_eq]
        exact before k hk
      · rw [List.mem_singleton.1 hk]
        exact enters.isSettledIn_new (visible i (by simp [parts])) fun misled =>
          innocent ⟨us, i, vs, s, parts, enters, Or.inl misled⟩

/-- The same insertions once more leave the text that they left, and none is made, exactly when each of them is settled in it.
They are, unless one of them undid one before it, or itself, by a line that it cut, an anchor that it brought, or another
section that is found because of it. -/
theorem applyInsertions_again (content : Text) (visible : ∀ i ∈ is, i.lines context ≠ []) :
    let left := (applyInsertions context content is).content
    let again := applyInsertions context left is
    ((again.content = left ∧ again.applied = 0) ↔ ∀ i ∈ is, i.IsSettledIn context left) ∧
    ((again.content = left ∧ again.applied = 0) ∨ Culprit context content is) := by
  intro left again
  have idle : (again.content = left ∧ again.applied = 0) ↔ ∀ i ∈ is, i.IsSettledIn context left :=
    foldl_idle_iff { content := left }
  refine ⟨idle, ?_⟩
  by_cases innocent : Culprit context content is
  · exact Or.inr innocent
  · exact Or.inl (idle.2 (isSettledIn_of_innocent visible innocent))

section Samples

/-- A text with a section, an anchor, and insertions for both; one more has neither. -/
def sharedText : Text := "// crudgen:begin imports\n// crudgen:end imports\nrun();\n".toList

def sharedInsertions : List Insertion := [
  { anchor := "run".toList, snippet := "import a;\n".toList, sectionName := some "imports".toList },
  { anchor := "run".toList, snippet := "use(a);\n".toList },
  { anchor := "stop".toList, snippet := "drop(a);\n".toList }]

theorem applyInsertions_again_sharedText :
    (∀ i ∈ sharedInsertions, i.lines [] ≠ []) ∧
    (applyInsertions [] sharedText sharedInsertions).content =
      "// crudgen:begin imports\nimport a;\n// crudgen:end imports\nuse(a);\nrun();\n".toList ∧
    ∀ i ∈ sharedInsertions, i.IsSettledIn [] (applyInsertions [] sharedText sharedInsertions).content := by
  have visible : ∀ i ∈ sharedInsertions, i.lines [] ≠ [] := by decide +kernel
  refine ⟨visible, by decide +kernel, (applyInsertions_again sharedText visible).1.1 ?_⟩
  decide +kernel

/-- Texts with insertions that undo one another or themselves: an anchor is brought, a line is cut, a section comes before the
one that was found, its begin marker is cut, it is ended by its own lines, or its begin marker is parted from the end marker
on the same line. -/
def restless : List (Text × List Insertion) := [
  ("END\n".toList, [
    { anchor := "// imports".toList, snippet := "import a;\n".toList },
    { anchor := "END".toList, snippet := "// imports\n".toList }]),
  ("foo bar\n".toList, [
    { anchor := "foo".toList, snippet := "foo bar\n".toList },
    { anchor := "bar".toList, snippet := "baz\n".toList }]),
  ("// crudgen:begin s\nfoo\n// crudgen:end s\n".toList, [
    { anchor := "foo".toList, snippet := "foo\n".toList, sectionName := some "s".toList },
    { anchor := "// crudgen:begin s".toList, snippet := "// crudgen:begin s\nbar\n// crudgen:end s\n".toList }]),
  ("// crudgen:begin s\nfoo\n// crudgen:begin s\n// crudgen:end s\n".toList, [
    { anchor := "foo".toList, snippet := "foo\n".toList, sectionName := some "s".toList },
    { anchor := "begin s".toList, snippet := "bar\n".toList }]),
  ("// crudgen:begin s\n// crudgen:end s\n".toList, [
    { anchor := "foo".toList, snippet := "// crudgen:end s\nfoo\n".toList, sectionName := some "s".toList }]),
  ("// crudgen:begin s ; // crudgen:end s\n".toList, [
    { anchor := ";".toList, snippet := "foo\n".toList, sectionName := some "s".toList }])]

/-- Each of them inserts something again, and changes its text. -/
theorem restless_again :
    (restless.all fun p => p.2.all fun i => i.anchor ≠ [] && i.snippet ≠ [] && i.lines [] ≠ []) = true ∧
    (restless.map fun p => (applyInsertions [] (applyInsertions [] p.1 p.2).content p.2).applied) = [1, 1, 1, 1, 1, 1] ∧
    (restless.all fun p => (applyInsertions [] (applyInsertions [] p.1 p.2).content p.2).content ≠
      (applyInsertions [] p.1 p.2).content) = true := by
  decide +kernel

end Samples

end EntityScaffold.SharedFile
