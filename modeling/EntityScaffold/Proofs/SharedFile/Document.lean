import EntityScaffold.Proofs.SharedFile.Seam
import EntityScaffold.Proofs.Text.Blank

/-
Files made of lines without tags and of tagged sections with names of one line. A section is found by the text of its begin
marker, and more names than its own can make a line read so: one that goes on from the name, or one that holds the marker. What
is found is the section of the name just when no section before it has such a name.
-/

namespace EntityScaffold.SharedFile

open Text (lines ended between firstWith? cut?)

variable {n : Text} {t : Text}

def tag : Text := "crudgen:".toList

/-- A line of a file that is no marker of a section. -/
@[mk_iff]
structure IsUntagged (l : Text) : Prop where
  oneLine : '\n' ∉ l
  noTag : ¬ tag <:+: l

instance (l : Text) : Decidable (IsUntagged l) := decidable_of_iff' _ (isUntagged_iff l)

/-- A section as it is written: a name of one line, lines without tags, and each marker on a line of its own, indented. -/
structure Region where
  name : Text
  body : List Text
  beginIndent : Text
  endIndent : Text
  oneLine : '\n' ∉ name
  untagged : ∀ l ∈ body, IsUntagged l
  indents : ∀ c ∈ beginIndent ++ endIndent, isIndent c = true

/-- A part of a file: a line without a tag, or a section. -/
inductive Part where
  | line (l : Text) (untagged : IsUntagged l)
  | region (r : Region)

namespace Region

variable (r : Region)

def opening : Text := r.beginIndent ++ beginMarker r.name

def closing : Text := r.endIndent ++ endMarker r.name

/-- The line of the section's begin marker reads as the begin marker of a name. -/
def Reads (n : Text) : Prop := n <+: r.name ∨ beginMarker n <:+: r.name

end Region

def Part.lines : Part → List Text
  | .line l _ => [l]
  | .region r => r.opening :: (r.body ++ [r.closing])

def linesOf (ps : List Part) : List Text := ps.flatMap Part.lines

/-- A file, with a line feed between each two of its lines. -/
structure Document where
  parts : List Part

def Document.text (d : Document) : Text := ['\n'].intercalate (linesOf d.parts)

/-- A section in its place: up to the line of its begin marker, its body, and from the line of its end marker on. -/
def Region.placed (r : Region) (before after : List Part) : Section where
  before := ended (linesOf before ++ [r.opening])
  body := ended r.body
  after := between [] r.closing (linesOf after)

theorem linesOf_region (before after : List Part) (r : Region) :
    linesOf (before ++ .region r :: after) = linesOf before ++ r.opening :: (r.body ++ r.closing :: linesOf after) := by
  simp [linesOf, Part.lines]

section Markers

theorem tag_infix_beginMarker (n : Text) : tag <:+: beginMarker n :=
  (show tag <:+: "// crudgen:begin ".toList by decide).trans (List.prefix_append _ n).isInfix

theorem tag_infix_endMarker (n : Text) : tag <:+: endMarker n :=
  (show tag <:+: "// crudgen:end ".toList by decide).trans (List.prefix_append _ n).isInfix

/-- Where no end of a text is a start of the needle's first part, the needle stands in what follows. -/
theorem infix_append_iff_of_tails {first a : Text} (apart : ∀ s ∈ a.tails, s ≠ [] → ¬ s <+: first)
    (short : a.length ≤ first.length) (hne : first ≠ []) (n m : Text) : first ++ n <:+: a ++ m ↔ first ++ n <:+: m := by
  have start {s : Text} (hs : s <:+ a) (hp : s <+: first ++ n) : s <+: first :=
    List.prefix_of_prefix_length_le hp (List.prefix_append first n) (hs.length_le.trans short)
  have unmet : ¬ Text.Straddles (first ++ n) a m := by
    rintro ⟨s, p, hs, -, he, hsa, -⟩
    exact apart s ((List.mem_tails s a).2 hsa) hs (start hsa ⟨p, he.symm⟩)
  rw [Text.infix_append_iff (List.append_ne_nil_of_left_ne_nil hne n) unmet]
  refine or_iff_right fun inside => ?_
  -- The text is no longer than the needle's first part, so it would have to be the needle.
  have whole : first ++ n = a := by
    refine inside.eq_of_length_le ?_
    rw [List.length_append]
    omega
  refine apart a ((List.mem_tails a a).2 (List.suffix_refl a)) ?_ (start (List.suffix_refl a) (whole ▸ List.prefix_refl _))
  rw [← whole]
  exact List.append_ne_nil_of_left_ne_nil hne n

theorem beginMarker_infix_beginMarker (n m : Text) :
    beginMarker n <:+: beginMarker m ↔ n <+: m ∨ beginMarker n <:+: m := by
  have later : beginMarker n <:+: "/ crudgen:begin ".toList ++ m ↔ beginMarker n <:+: m :=
    infix_append_iff_of_tails (by decide) (by decide) (by decide) n m
  have first : beginMarker n <+: beginMarker m ↔ n <+: m := List.prefix_append_right_inj _
  rw [← first]
  exact List.infix_cons_iff.trans (or_congr_right later)

theorem beginMarker_infix_endMarker (n m : Text) : beginMarker n <:+: endMarker m ↔ beginMarker n <:+: m :=
  infix_append_iff_of_tails (by decide) (by decide) (by decide) n m

end Markers

namespace Region

variable {r : Region}

theorem gap_indents (r : Region) : Text.IsGap r.beginIndent ∧ Text.IsGap r.endIndent := by
  constructor
  · exact fun c hc => isBlank_of_isIndent (r.indents c (List.mem_append_left _ hc))
  · exact fun c hc => isBlank_of_isIndent (r.indents c (List.mem_append_right _ hc))

theorem beginMarker_infix_opening (r : Region) (n : Text) : beginMarker n <:+: r.opening ↔ r.Reads n := by
  rw [Reads, ← beginMarker_infix_beginMarker]
  exact Text.infix_gap_append_iff r.gap_indents.1 (by decide) _ _

theorem reads_of_closing (h : beginMarker n <:+: r.closing) : r.Reads n := by
  have inside : beginMarker n <:+: endMarker r.name :=
    (Text.infix_gap_append_iff r.gap_indents.2 (by decide) _ _).1 h
  exact Or.inr ((beginMarker_infix_endMarker n r.name).1 inside)

theorem endMarker_infix_closing (h : n <+: r.name) : endMarker n <:+: r.closing :=
  ((List.prefix_append_right_inj _).2 h).isInfix.trans (List.suffix_append r.endIndent _).isInfix

theorem not_endMarker_of_mem_body {l : Text} (hl : l ∈ r.body) : ¬ endMarker n <:+: l :=
  fun h => (r.untagged l hl).noTag ((tag_infix_endMarker n).trans h)

theorem oneLine_of_mem {l : Text} (hl : l ∈ r.opening :: (r.body ++ [r.closing])) : '\n' ∉ l := by
  have indents : '\n' ∉ r.beginIndent ++ r.endIndent := fun hm => absurd (r.indents _ hm) (by decide)
  rw [List.mem_append, not_or] at indents
  simp only [List.mem_cons, List.mem_append, List.not_mem_nil, or_false] at hl
  rcases hl with rfl | hl | rfl
  · simp [opening, indents.1, not_mem_beginMarker r.oneLine]
  · exact (r.untagged l hl).oneLine
  · simp [closing, indents.2, not_mem_endMarker r.oneLine]

end Region

theorem oneLine_of_mem_linesOf {ps : List Part} {l : Text} (hl : l ∈ linesOf ps) : '\n' ∉ l := by
  obtain ⟨p, -, hl⟩ := List.mem_flatMap.1 hl
  cases p with
  | line m untagged =>
    obtain rfl := List.mem_singleton.1 hl
    exact untagged.oneLine
  | region r => exact r.oneLine_of_mem hl

theorem not_beginMarker_of_mem_linesOf {ps : List Part} (others : ∀ r, .region r ∈ ps → ¬ r.Reads n) :
    ∀ l ∈ linesOf ps, ¬ beginMarker n <:+: l := by
  intro l hl begins
  obtain ⟨p, hp, hl⟩ := List.mem_flatMap.1 hl
  cases p with
  | line m untagged =>
    obtain rfl := List.mem_singleton.1 hl
    exact untagged.noTag ((tag_infix_beginMarker n).trans begins)
  | region r =>
    simp only [Part.lines, List.mem_cons, List.mem_append, List.not_mem_nil, or_false] at hl
    rcases hl with rfl | hl | rfl
    · exact others r hp ((r.beginMarker_infix_opening n).1 begins)
    · exact (r.untagged l hl).noTag ((tag_infix_beginMarker n).trans begins)
    · exact others r hp (Region.reads_of_closing begins)

theorem exists_first_reading (n : Text) (ps : List Part) :
    (∀ r, .region r ∈ ps → ¬ r.Reads n) ∨
      ∃ before r after, ps = before ++ .region r :: after ∧ r.Reads n ∧ ∀ q, .region q ∈ before → ¬ q.Reads n := by
  induction ps with
  | nil => simp
  | cons p ps ih =>
    by_cases first : ∃ r, p = .region r ∧ r.Reads n
    · obtain ⟨r, rfl, reads⟩ := first
      exact Or.inr ⟨[], r, ps, rfl, reads, by simp⟩
    · have head (q : Region) (hq : Part.region q = p) : ¬ q.Reads n := fun reads => first ⟨q, hq.symm, reads⟩
      rcases ih with none | ⟨before, r, after, rfl, reads, others⟩
      · left
        intro q hq
        rcases List.mem_cons.1 hq with hq | hq
        · exact head q hq
        · exact none q hq
      · refine Or.inr ⟨p :: before, r, after, rfl, reads, fun q hq => ?_⟩
        rcases List.mem_cons.1 hq with hq | hq
        · exact head q hq
        · exact others q hq

theorem first_reading_before {us vs before after : List Part} {first r : Region}
    (others : ∀ q, .region q ∈ us → ¬ q.Reads n) (reads : r.Reads n)
    (parts : us ++ .region first :: vs = before ++ .region r :: after) :
    ∃ xs, before = us ++ xs ∧ .region first :: vs = xs ++ .region r :: after := by
  rcases List.append_eq_append_iff.1 parts with ⟨xs, hx, hy⟩ | ⟨xs, hx, hy⟩
  · exact ⟨xs, hx, hy⟩
  · cases xs with
    | nil => exact ⟨[], by simpa using hx.symm, hy.symm⟩
    | cons x xs =>
      obtain ⟨rfl, -⟩ := List.cons.inj hy
      exact absurd reads (others r (by simp [hx]))

section AnyName

theorem dropWhile_append_of_not_mem {w : Text} (oneLine : '\n' ∉ w) (t : Text) :
    (w ++ t).dropWhile (· ≠ '\n') = t.dropWhile (· ≠ '\n') :=
  List.dropWhile_append_of_pos fun _ hc => decide_eq_true fun e => oneLine (e ▸ hc)

theorem dropWhile_suffix_append (w t : Text) : t.dropWhile (· ≠ '\n') <:+ (w ++ t).dropWhile (· ≠ '\n') := by
  rw [List.dropWhile_append]
  split
  · exact List.suffix_refl _
  · exact (List.dropWhile_suffix _).trans (List.suffix_append _ _)

theorem beginMarker_append (n t : Text) : ∃ w, '\n' ∉ w ∧ beginMarker n ++ t = w ++ (n ++ t) :=
  ⟨"// crudgen:begin ".toList, by decide, List.append_assoc ..⟩

theorem dropWhile_beginMarker (n t : Text) :
    (beginMarker n ++ t).dropWhile (· ≠ '\n') = (n ++ t).dropWhile (· ≠ '\n') := by
  obtain ⟨w, oneLine, written⟩ := beginMarker_append n t
  rw [written]
  exact dropWhile_append_of_not_mem oneLine (n ++ t)

theorem bodyAfter_eq_none_iff (n t : Text) : bodyAfter n t = none ↔ ¬ endMarker n <:+: t.dropWhile (· ≠ '\n') := by
  by_cases line : '\n' ∈ t
  · obtain ⟨x, y, rfl, hx⟩ := List.eq_append_cons_of_mem line
    have rest : endMarker n <:+: '\n' :: y ↔ endMarker n <:+: y := by
      rw [List.infix_cons_iff]
      exact or_iff_right fun h => absurd (List.cons_prefix_cons.1 h).1 (by decide)
    have opened : bodyAfter n (x ++ '\n' :: y ++ []) = bodyIn n (y ++ []) := bodyAfter_append hx y []
    rw [List.append_nil, List.append_nil] at opened
    rw [opened, bodyIn, Option.map_eq_none_iff, Text.cut?_eq_none_iff, dropWhile_append_of_not_mem hx]
    exact (not_congr rest).symm
  · have opened : bodyAfter n (t ++ []) = bodyAfter n [] := bodyAfter_append_of_not_mem line []
    have nothing : t.dropWhile (· ≠ '\n') = [] := by simpa using dropWhile_append_of_not_mem line []
    rw [← List.append_nil t, opened, List.append_nil, nothing]
    exact iff_of_true rfl fun h => endMarker_ne_nil n (List.infix_nil.1 h)

/-- No section of a name is found in a text just when no end marker follows on the line of a begin marker. -/
theorem section?_eq_none_iff (t n : Text) :
    (section? t n = none) ↔
      ∀ a b, t = a ++ (beginMarker n ++ b) → ¬ endMarker n <:+: (n ++ b).dropWhile (· ≠ '\n') := by
  have body : section? t n = none ↔ body? t n = none := Option.map_eq_none_iff.symm
  rw [body, body?_eq]
  cases hcut : cut? (beginMarker n) t with
  | none =>
    refine iff_of_true rfl ?_
    rintro a b rfl
    exact absurd ⟨a, b, List.append_assoc ..⟩ (Text.cut?_eq_none_iff.1 hcut)
  | some p =>
    obtain ⟨a, r⟩ := p
    obtain ⟨b, rfl⟩ := List.isPrefixOf_iff_prefix.1 (Text.isPrefixOf_of_cut? hcut)
    have whole := Text.append_of_cut? hcut
    rw [Option.bind_some, bodyAfter_eq_none_iff, dropWhile_beginMarker]
    constructor
    · rintro missing a' b' rfl later
      -- Another begin marker stands after the first one, and so does an end marker after it.
      obtain ⟨x, rfl⟩ := Text.prefix_of_cut? hcut (List.prefix_append _ b')
      rw [List.append_assoc] at whole
      have last := dropWhile_suffix_append x (beginMarker n ++ b')
      rw [← List.append_cancel_left whole, dropWhile_beginMarker, dropWhile_beginMarker] at last
      exact missing (later.trans last.isInfix)
    · exact fun none => none a b whole.symm

end AnyName

namespace Document

variable {d : Document} {before after : List Part} {r : Region}

theorem lines_text (hd : linesOf d.parts ≠ []) : lines d.text = linesOf d.parts := by
  obtain ⟨ls, l, hls⟩ : ∃ ls l, linesOf d.parts = ls ++ [l] :=
    ⟨_, _, (List.dropLast_concat_getLast hd).symm⟩
  have oneLine : ∀ m ∈ ls ++ [l], '\n' ∉ m := fun m hm => oneLine_of_mem_linesOf (hls ▸ hm)
  rw [text, hls, Text.intercalate_eq_between, Text.lines_between]
  · exact fun m hm => oneLine m (by simp [hm])
  · exact oneLine l (by simp)
  · simp

theorem tagged?_of_none (others : ∀ r, .region r ∈ d.parts → ¬ r.Reads n) : tagged? n (lines d.text) = none := by
  have nowhere : firstWith? (beginMarker n) (lines d.text) = none := by
    rw [Text.firstWith?_eq_none_iff]
    by_cases hd : linesOf d.parts = []
    · have empty : d.text = [] := by rw [text, hd]; rfl
      intro l hl begins
      have hl' : l = [] := by simpa [empty, Text.splitAt] using hl
      exact beginMarker_ne_nil n (List.infix_nil.1 (hl' ▸ begins))
    · rw [lines_text hd]
      exact not_beginMarker_of_mem_linesOf others
  rw [tagged?, nowhere]
  rfl

/-- The section that is found begins with the first one that reads as one of the name. -/
theorem tagged?_of_first (parts : d.parts = before ++ .region r :: after) (reads : r.Reads n)
    (others : ∀ q, .region q ∈ before → ¬ q.Reads n) :
    tagged? n (lines d.text) = (firstWith? (endMarker n) (r.body ++ r.closing :: linesOf after)).map
      fun (body, closing, rest) => ⟨linesOf before ++ [r.opening], body, closing, rest⟩ := by
  have whole := linesOf_region before after r
  rw [← parts] at whole
  have opens : firstWith? (beginMarker n) (lines d.text) =
      some (linesOf before, r.opening, r.body ++ r.closing :: linesOf after) := by
    rw [lines_text (by simp [whole]), Text.firstWith?_eq_some_iff]
    exact ⟨whole, not_beginMarker_of_mem_linesOf others, (r.beginMarker_infix_opening n).2 reads⟩
  rw [tagged?, opens]
  rfl

theorem section?_of_first (parts : d.parts = before ++ .region r :: after) (starts : n <+: r.name)
    (others : ∀ q, .region q ∈ before → ¬ q.Reads n) : section? d.text n = some (r.placed before after) := by
  have oneLine : '\n' ∉ n := fun hm => r.oneLine (starts.subset hm)
  have closes : firstWith? (endMarker n) (r.body ++ r.closing :: linesOf after) =
      some (r.body, r.closing, linesOf after) :=
    Text.firstWith?_eq_some_iff.2 ⟨rfl, fun l hl => Region.not_endMarker_of_mem_body hl, Region.endMarker_infix_closing starts⟩
  rw [section?_eq_tagged? oneLine, tagged?_of_first parts (Or.inl starts) others, closes]
  rfl

theorem section?_ne_of_reads (oneLine : '\n' ∉ n) (parts : d.parts = before ++ .region r :: after) {q : Region}
    (hq : .region q ∈ before) (reads : q.Reads n) : section? d.text n ≠ some (r.placed before after) := by
  obtain none | ⟨us, first, vs, hparts, hfirst, others⟩ := exists_first_reading n d.parts
  · exact absurd reads (none q (by simp [parts, hq]))
  obtain ⟨as, bs, rfl⟩ := List.append_of_mem hq
  rw [List.append_assoc, List.cons_append] at parts
  obtain ⟨xs, rfl, hxs⟩ := first_reading_before others reads (hparts.symm.trans parts)
  obtain ⟨ws, hws⟩ : ∃ ws, xs ++ .region q :: bs = .region first :: ws := by
    cases xs with
    | nil => exact ⟨bs, by rw [(List.cons.inj hxs).1]; rfl⟩
    | cons x xs => exact ⟨xs ++ .region q :: bs, by rw [(List.cons.inj hxs).1]; rfl⟩
  rw [section?_eq_tagged? oneLine, tagged?_of_first hparts hfirst others]
  cases firstWith? (endMarker n) (first.body ++ first.closing :: linesOf vs) with
  | none => simp
  | some p =>
    intro found
    have starts : ended (linesOf us ++ [first.opening]) = ended (linesOf (us ++ xs ++ .region q :: bs) ++ [r.opening]) :=
      congrArg Section.before (Option.some.inj found)
    rw [List.append_assoc, hws, linesOf_region] at starts
    have lengths := congrArg List.length starts
    simp only [Text.ended_append, Text.ended_cons, Text.ended_nil, List.length_append, List.length_cons] at lengths
    omega

theorem section?_eq_none_iff_of_oneLine (oneLine : '\n' ∉ n) :
    (section? d.text n = none) ↔ ∀ before r after, d.parts = before ++ .region r :: after → r.Reads n →
      ∀ l ∈ r.closing :: linesOf after, ¬ endMarker n <:+: l := by
  rw [section?_eq_tagged? oneLine, Option.map_eq_none_iff]
  rcases exists_first_reading n d.parts with none | ⟨us, first, vs, hparts, hfirst, others⟩
  · rw [tagged?_of_none none]
    exact iff_of_true rfl fun before r after parts reads => absurd reads (none r (by simp [parts]))
  · rw [tagged?_of_first hparts hfirst others, Option.map_eq_none_iff, Text.firstWith?_eq_none_iff]
    constructor
    · intro open_ before r after parts reads
      obtain ⟨xs, -, hxs⟩ := first_reading_before others reads (hparts.symm.trans parts)
      have later : r.closing :: linesOf after ⊆ first.closing :: linesOf vs := by
        cases xs with
        | nil =>
          obtain ⟨he, rfl⟩ := List.cons.inj hxs
          rw [Part.region.inj he]
          exact List.Subset.refl _
        | cons x xs =>
          rw [(List.cons.inj hxs).2]
          intro l hl
          simp only [List.append_eq, linesOf_region, List.mem_cons, List.mem_append] at hl ⊢
          tauto
      exact fun l hl => open_ l (List.mem_append_right _ (later hl))
    · intro open_ l hl
      rcases List.mem_append.1 hl with hl | hl
      · exact Region.not_endMarker_of_mem_body hl
      · exact open_ us first vs hparts hfirst l hl

/-- What is found in a file by a name. A section is found where it stands when its name goes on from the name and no section
before it reads as one of the name; so the section of the name is found just when none before it does. For a name that none
has, nothing is found just when no end marker of the name follows on a begin marker. -/
theorem section?_text (d : Document) (n : Text) :
    (∀ before r after, d.parts = before ++ .region r :: after → n <+: r.name →
      (∀ q, .region q ∈ before → ¬ q.Reads n) → section? d.text n = some (r.placed before after)) ∧
    (∀ before r after, d.parts = before ++ .region r :: after → r.name = n →
      (section? d.text n = some (r.placed before after) ↔ ∀ q, .region q ∈ before → ¬ q.Reads n)) ∧
    ('\n' ∉ n → (section? d.text n = none ↔
      ∀ before r after, d.parts = before ++ .region r :: after → r.Reads n →
        ∀ l ∈ r.closing :: linesOf after, ¬ endMarker n <:+: l)) ∧
    ('\n' ∈ n → (∀ r, .region r ∈ d.parts → r.name ≠ n) ∧ (section? d.text n = none ↔
      ∀ a b, d.text = a ++ (beginMarker n ++ b) → ¬ endMarker n <:+: (n ++ b).dropWhile (· ≠ '\n'))) := by
  refine ⟨fun before r after => section?_of_first, ?_, section?_eq_none_iff_of_oneLine, ?_⟩
  · rintro before r after parts rfl
    constructor
    · exact fun found q hq reads => section?_ne_of_reads r.oneLine parts hq reads found
    · exact section?_of_first parts (List.prefix_refl _)
  · intro line
    refine ⟨?_, section?_eq_none_iff d.text n⟩
    rintro r - rfl
    exact r.oneLine line

end Document

section Samples

def routesRegion : Region where
  name := "routes".toList
  body := ["  users,".toList]
  beginIndent := "  ".toList
  endIndent := "  ".toList
  oneLine := by decide
  untagged := by decide
  indents := by decide

/-- A section whose name goes on from the name of another. -/
def adminRegion : Region where
  name := "routes-admin".toList
  body := ["  audits,".toList]
  beginIndent := "  ".toList
  endIndent := "  ".toList
  oneLine := by decide
  untagged := by decide
  indents := by decide

def routesLine : Part := .line "routes = [".toList (by decide)

def shortFirst : Document := ⟨[routesLine, .region routesRegion, .region adminRegion]⟩

def longFirst : Document := ⟨[routesLine, .region adminRegion, .region routesRegion]⟩

theorem section?_text_routes :
    shortFirst.text = ("routes = [\n  // crudgen:begin routes\n  users,\n  // crudgen:end routes\n" ++
      "  // crudgen:begin routes-admin\n  audits,\n  // crudgen:end routes-admin").toList ∧
    (section? shortFirst.text "routes".toList = some (routesRegion.placed [routesLine] [.region adminRegion])) ∧
    (section? shortFirst.text "routes-admin".toList =
      some (adminRegion.placed [routesLine, .region routesRegion] [])) ∧
    (section? shortFirst.text "roots".toList = none) := by
  have readings : ¬ routesRegion.Reads "routes-admin".toList ∧ ¬ routesRegion.Reads "roots".toList ∧
      ¬ adminRegion.Reads "roots".toList := by
    simp only [Region.Reads]
    decide
  obtain ⟨first, -⟩ := Document.section?_text shortFirst "routes".toList
  obtain ⟨-, named, -⟩ := Document.section?_text shortFirst "routes-admin".toList
  obtain ⟨-, -, missing, -⟩ := Document.section?_text shortFirst "roots".toList
  refine ⟨by decide +kernel, ?_, ?_, ?_⟩
  · exact first [routesLine] routesRegion [.region adminRegion] rfl (List.prefix_refl _) (by simp [routesLine])
  · refine (named [routesLine, .region routesRegion] adminRegion [] rfl rfl).2 ?_
    simpa [routesLine] using readings.1
  · refine (missing (by decide)).2 ?_
    intro before r after parts reads
    have member : Part.region r ∈ shortFirst.parts := by simp [parts]
    simp only [shortFirst, routesLine, List.mem_cons, reduceCtorEq, Part.region.injEq, List.not_mem_nil, false_or,
      or_false] at member
    rcases member with rfl | rfl
    · exact absurd reads readings.2.1
    · exact absurd reads readings.2.2

/-- By the name of a section the one before it is found, whose name goes on from it, and by the start of a name that no section
has, a section. -/
theorem longer_name_found :
    (section? longFirst.text "routes".toList = some (adminRegion.placed [routesLine] [.region routesRegion])) ∧
    (section? longFirst.text "routes".toList ≠ some (routesRegion.placed [routesLine, .region adminRegion] [])) ∧
    "rout".toList ∉ [adminRegion.name, routesRegion.name] ∧
    (section? longFirst.text "rout".toList = some (adminRegion.placed [routesLine] [.region routesRegion])) := by
  decide +kernel

end Samples

end EntityScaffold.SharedFile
