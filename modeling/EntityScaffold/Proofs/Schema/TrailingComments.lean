import EntityScaffold.Proofs.Schema.Statements

/-
Comments at the end of lines. Only a whole line is skipped as a comment, so what is put to the end of a declaration is read
with it: its words are attributes of the last statement, and each semicolon in it starts another statement.
-/

namespace EntityScaffold.Schema

open Text (IsGap isBlank strip words)

variable {entity : Text} {optional : List Text} {l last h t : Text} {ts : List Text}

theorem map_toLower_of_gap {a : Text} (ha : IsGap a) : a.map Char.toLower = a := by
  have same : ∀ c ∈ a, c.toLower = id c := by
    intro c hc
    refine Text.toLower_of_not_capital ?_
    intro capital
    have blank := ha c hc
    obtain ⟨hlow, hhigh⟩ := capital
    simp only [isBlank, Bool.or_eq_true, Bool.and_eq_true, decide_eq_true_eq] at blank
    omega
  rw [List.map_congr_left same, List.map_id]

def markWords : Text := "relation starts".toList

theorem markWords_infix_gap_append_iff {a : Text} (ha : IsGap a) (t : Text) :
    markWords <:+: a ++ t ↔ markWords <:+: t := by
  have starts : markWords = 'r' :: "elation starts".toList := rfl
  rw [starts, Text.infix_gap_append_iff ha (by decide)]

theorem markWords_infix_append_gap_iff {b : Text} (hb : IsGap b) (t : Text) :
    markWords <:+: t ++ b ↔ markWords <:+: t := by
  have ends : markWords = "relation start".toList ++ ['s'] := rfl
  rw [ends, Text.infix_append_gap_iff hb (by decide)]

theorem infix_map_strip_iff (l : Text) : markWords <:+: (strip l).map Char.toLower ↔ markWords <:+: l.map Char.toLower := by
  obtain ⟨a, b, ha, hb, hl⟩ := Text.exists_eq_gap_strip l
  have whole : l.map Char.toLower = a ++ ((strip l).map Char.toLower ++ b) := by
    calc l.map Char.toLower = (a ++ (strip l ++ b)).map Char.toLower := by rw [← hl]
      _ = a ++ ((strip l).map Char.toLower ++ b) := by
        rw [List.map_append, List.map_append, map_toLower_of_gap ha, map_toLower_of_gap hb]
  rw [whole, markWords_infix_gap_append_iff ha, markWords_infix_append_gap_iff hb]

theorem isMark_iff_words (l : Text) : IsMark l ↔ IsComment l ∧ markWords <:+: l.map Char.toLower := by
  rw [IsMark, ← infix_map_strip_iff]
  rfl

def commented (last h : Text) : Text := last ++ (" // ".toList ++ h)

theorem isComment_commented_of_gap (gap : IsGap last) (h : Text) : IsComment (commented last h) := by
  have slashes : ∀ c ∈ "//".toList, isBlank c = false := by decide
  rw [IsComment, commented, Text.strip_gap_append gap, Text.prefix_strip_iff slashes]
  exact ⟨' ' :: h, rfl⟩

theorem prefix_strip_commented_iff {n : Text} (hn : ∀ c ∈ n, isBlank c = false) (hlast : ¬ IsGap last) (h : Text) :
    n <+: strip (commented last h) ↔ n <+: strip last := Text.prefix_strip_append_iff hn hlast (by decide) _

theorem isComment_commented_iff (hlast : ¬ IsGap last) (h : Text) : IsComment (commented last h) ↔ IsComment last :=
  prefix_strip_commented_iff (by decide) hlast h

theorem isOwn_commented_iff (last h : Text) : IsOwn (commented last h) ↔ IsOwn last := by
  by_cases gap : IsGap last
  · have comment := isComment_commented_of_gap gap h
    constructor
    · exact fun own => absurd comment own.noComment
    · exact fun own => absurd gap own.notBlank
  · have notGap : ¬ IsGap (commented last h) := fun all => gap fun c hc => all c (List.mem_append_left _ hc)
    have signs : ∀ c ∈ "@@".toList, isBlank c = false := by decide
    rw [isOwn_iff, isOwn_iff, isComment_commented_iff gap, prefix_strip_commented_iff signs gap]
    simp [gap, notGap]

/-- A comment without the words of the relation mark makes no statement the mark. -/
theorem isMark_commented_iff (noMark : ¬ markWords <:+: h.map Char.toLower) (last : Text) :
    IsMark (commented last h) ↔ IsMark last := by
  have found : markWords <:+: (commented last h).map Char.toLower ↔ markWords <:+: last.map Char.toLower := by
    have spelled : (commented last h).map Char.toLower =
        (last.map Char.toLower ++ [' ']) ++ '/' :: ([] ++ '/' :: ([' '] ++ h.map Char.toLower)) := by
      simp [commented]
    have slash : '/' ∉ markWords := by decide
    have some : markWords ≠ [] := List.cons_ne_nil _ _
    have other : ¬ (markWords <:+: [] ∨ markWords <:+: h.map Char.toLower) :=
      not_or.2 ⟨mt List.infix_nil.1 some, noMark⟩
    have space : IsGap [' '] := by decide
    rw [spelled, Text.infix_append_cons_iff some slash, Text.infix_append_cons_iff some slash,
      markWords_infix_append_gap_iff space, markWords_infix_gap_append_iff space, or_iff_left other]
  rw [isMark_iff_words, isMark_iff_words, found]
  by_cases gap : IsGap last
  · have none : ¬ markWords <:+: last.map Char.toLower := by
      rw [map_toLower_of_gap gap]
      intro inside
      exact absurd (gap 'r' (inside.subset (by decide))) (by decide)
    simp [none]
  · rw [isComment_commented_iff gap]

theorem isMark_commented (mark : IsMark last) (h : Text) : IsMark (commented last h) := by
  rw [isMark_iff_words] at mark ⊢
  obtain ⟨comment, inside⟩ := mark
  have notGap : ¬ IsGap last := by
    intro gap
    rw [IsComment, Text.strip_eq_nil_iff.2 gap] at comment
    exact absurd comment (by decide)
  constructor
  · exact (isComment_commented_iff notGap h).2 comment
  · rw [commented, List.map_append]
    exact inside.trans (List.prefix_append _ _).isInfix

theorem words_commented (last h : Text) : words (commented last h) = words last ++ "//".toList :: words h := by
  have split : commented last h = last ++ ' ' :: ("//".toList ++ ' ' :: h) := rfl
  rw [split, Text.words_append_cons (by decide), Text.words_append_cons (by decide)]
  rfl

/-- One list of statements gives at least the fields of another, and where it gives no more, it loses at least as many. -/
structure Exceeds (optional : List Text) (ss us : List Text) : Prop where
  fields : (given optional ss).length ≤ (given optional us).length
  lost : (given optional ss).length = (given optional us).length → lost optional ss ≤ lost optional us

/-- Two lists of statements give the same fields and lose as many. -/
def Same (optional ss us : List Text) : Prop := given optional us = given optional ss ∧ lost optional us = lost optional ss

theorem Exceeds.refl (optional ss : List Text) : Exceeds optional ss ss := ⟨Nat.le_refl _, fun _ => Nat.le_refl _⟩

theorem given_append (optional ss us : List Text) : given optional (ss ++ us) = given optional ss ++ given optional us :=
  List.filterMap_append

theorem lost_append (optional ss us : List Text) : lost optional (ss ++ us) = lost optional ss + lost optional us :=
  List.countP_append

variable {ss us ss' us' : List Text}

theorem Exceeds.append (first : Exceeds optional ss us) (next : Exceeds optional ss' us') :
    Exceeds optional (ss ++ ss') (us ++ us') := by
  have hfirst := first.fields
  have hnext := next.fields
  constructor
  · rw [given_append, given_append, List.length_append, List.length_append]
    omega
  · rw [given_append, given_append, List.length_append, List.length_append, lost_append, lost_append]
    intro equal
    have := first.lost (by omega)
    have := next.lost (by omega)
    omega

theorem same_append_iff (first : Exceeds optional ss us) (next : Exceeds optional ss' us') :
    Same optional (ss ++ ss') (us ++ us') ↔ Same optional ss us ∧ Same optional ss' us' := by
  constructor
  · intro same
    obtain ⟨fields, losses⟩ := same
    rw [given_append, given_append] at fields
    rw [lost_append, lost_append] at losses
    have lengths := congrArg List.length fields
    rw [List.length_append, List.length_append] at lengths
    have hfirst := first.fields
    have hnext := next.fields
    obtain ⟨same, same'⟩ := List.append_inj fields (by omega)
    have := first.lost (by omega)
    have := next.lost (by omega)
    exact ⟨⟨same, by omega⟩, ⟨same', by omega⟩⟩
  · intro same
    obtain ⟨⟨fields, losses⟩, fields', losses'⟩ := same
    exact ⟨by rw [given_append, given_append, fields, fields'], by rw [lost_append, lost_append, losses, losses']⟩

/-- A text that can stand after a declaration as its comment. -/
structure IsTrailing (t : Text) : Prop where
  oneLine : '\n' ∉ t
  noClosing : '\x7d' ∉ t
  noQuote : '"' ∉ t

/-- A comment after a statement that neither adds a statement nor changes what the statement gives. -/
structure IsHarmless (optional : List Text) (last t : Text) : Prop where
  /-- No part of the comment after a semicolon has to be a field. -/
  ended : ∀ s ∈ (Text.splitAt ';' t).tail, ¬ IsOwn s
  /-- The statement has a type of its own. -/
  complete : IsOwn last → (words last).length ≠ 1
  /-- The statement is unique already, or no word of the comment before its first semicolon says so. -/
  unique : IsOwn last → ∀ f, Field.ofLine? optional last = some f → f.isUnique = false →
    "@unique".toList ∉ words ((Text.splitAt ';' t).headD [])

theorem ofLine?_of_single (optional : List Text) {n : Text} (h : words last = [n]) : Field.ofLine? optional last = none := by
  rw [Field.ofLine?, h]

/-- A statement with a name alone takes the start of the comment for its type. -/
theorem ofLine?_commented_of_single (optional : List Text) {n : Text} (single : words last = [n]) (h : Text) :
    ∃ f, Field.ofLine? optional (commented last h) = some f := by
  rw [Field.ofLine?, words_commented, single]
  exact ⟨_, if_neg (by decide)⟩

theorem ofLine?_commented (optional : List Text) {n token : Text} {attributes : List Text}
    (hwords : words last = n :: token :: attributes) (h : Text) : Field.ofLine? optional (commented last h) = (Field.ofLine? optional last).map fun f =>
      { f with isUnique := f.isUnique || (words h).contains "@unique".toList } := by
  rw [Field.ofLine?, Field.ofLine?, words_commented, hwords]
  simp only [List.cons_append]
  split
  · rfl
  · simp

theorem length_given_add_lost (optional ss : List Text) : (given optional ss).length + lost optional ss = ss.length := by
  induction ss with
  | nil => rfl
  | cons s ss ih =>
    rw [given, lost] at ih ⊢
    cases hs : Field.ofLine? optional s with
    | none =>
      simp only [List.filterMap_cons, List.countP_cons, hs, Option.isNone_none, if_true, List.length_cons]
      omega
    | some f =>
      simp only [List.filterMap_cons, List.countP_cons, hs, Option.isNone_some, Bool.false_eq_true, if_false,
        List.length_cons]
      omega

theorem given_eq_nil_and_lost_eq_zero_iff (optional ss : List Text) : given optional ss = [] ∧ lost optional ss = 0 ↔ ss = [] := by
  have total := length_given_add_lost optional ss
  constructor
  · intro empty
    obtain ⟨fields, losses⟩ := empty
    rw [fields, losses] at total
    exact List.length_eq_zero_iff.1 total.symm
  · intro empty
    rw [empty]
    exact ⟨rfl, rfl⟩

theorem given_cons (optional : List Text) (s : Text) (ss : List Text) :
    given optional (s :: ss) = (Field.ofLine? optional s).toList ++ given optional ss := by
  rw [given, given, List.filterMap_cons]
  cases Field.ofLine? optional s with
  | none => rfl
  | some f => rfl

/-- Statements after a comment's first semicolon are added; none of them may have to be a field. -/
theorem exceeds_added (optional added : List Text) :
    Exceeds optional [] added ∧ (Same optional [] added ↔ added = []) := by
  refine ⟨⟨Nat.zero_le _, fun _ => Nat.zero_le _⟩, ?_⟩
  rw [Same, ← given_eq_nil_and_lost_eq_zero_iff optional]
  rfl

theorem exceeds_statement (optional : List Text) (hlast : ¬ IsGap last) (h : Text) :
    Exceeds optional [last] [commented last h] ∧
      (Same optional [last] [commented last h] ↔ (words last).length ≠ 1 ∧
        ∀ f, Field.ofLine? optional last = some f → f.isUnique = false → "@unique".toList ∉ words h) := by
  obtain ⟨n, ws, hwords⟩ := List.exists_cons_of_ne_nil (Text.words_ne_nil_of_not_gap hlast)
  cases ws with
  | nil =>
    obtain ⟨f, hf⟩ := ofLine?_commented_of_single optional hwords h
    have none := ofLine?_of_single optional hwords
    constructor
    · constructor
      · simp [given_cons, none, hf]
      · simp [given, none, hf]
    · simp [Same, given, hwords, none, hf]
  | cons token attributes =>
    have read := ofLine?_commented optional hwords h
    cases hf : Field.ofLine? optional last with
    | none =>
      have unread : Field.ofLine? optional (commented last h) = none := by rw [read, hf, Option.map_none]
      constructor
      · constructor
        · simp [given, hf, unread]
        · simp [lost, hf, unread]
      · simp [Same, given, lost, hwords, hf, unread]
    | some f =>
      have marked : Field.ofLine? optional (commented last h) =
          some { f with isUnique := f.isUnique || (words h).contains "@unique".toList } := by
        rw [read, hf, Option.map_some]
      constructor
      · constructor
        · simp [given, hf, marked]
        · simp [lost, hf, marked]
      · cases hunique : f.isUnique with
        | true =>
          have same : { f with isUnique := true } = f := by rw [← hunique]
          simp [Same, given, lost, hwords, hf, marked, hunique, same]
        | false =>
          have same : { f with isUnique := (words h).contains "@unique".toList } = f ↔ "@unique".toList ∉ words h := by
            constructor
            · intro equal
              have unique := congrArg Field.isUnique equal
              rw [hunique] at unique
              simpa using unique
            · intro absent
              have none : (words h).contains "@unique".toList = false := by simpa using absent
              rw [none, ← hunique]
          have kept : Same optional [last] [commented last h] ↔ "@unique".toList ∉ words h := by
            rw [← same]
            simp [Same, given, lost, hf, marked, hunique]
          rw [kept, hwords]
          constructor
          · intro absent
            exact ⟨by simp, fun _ _ _ => absent⟩
          · intro harmless
            exact harmless.2 f rfl hunique

theorem own_eq_nil_iff (noMark : ∀ s ∈ ss, ¬ IsMark s) : own ss = [] ↔ ∀ s ∈ ss, ¬ IsOwn s := by
  have all : ss.takeWhile (fun s => ¬ IsMark s) = ss := by
    rw [List.takeWhile_eq_self_iff]
    exact fun s hs => by simpa using noMark s hs
  rw [own, all, List.filter_eq_nil_iff]
  simp

theorem own_single (noMark : ¬ IsMark last) : own [last] = if IsOwn last then [last] else [] := by
  rw [own_cons, if_neg noMark]
  rfl

/-- A comment at the end of a line changes what is read of the line just where it is not harmless. -/
theorem exceeds_comment (optional : List Text) (noMark : ¬ IsMark last) (hparts : Text.splitAt ';' t = h :: ts)
    (noMarks : ∀ s ∈ commented last h :: ts, ¬ IsMark s) :
    Exceeds optional (own [last]) (own (commented last h :: ts)) ∧
      (Same optional (own [last]) (own (commented last h :: ts)) ↔ IsHarmless optional last t) := by
  obtain ⟨unmarked, unmarkedParts⟩ := List.forall_mem_cons.1 noMarks
  have split : own (commented last h :: ts) = own [commented last h] ++ own ts :=
    own_append (List.forall_mem_singleton.2 unmarked) ts
  obtain ⟨exceedsAdded, sameAdded⟩ := exceeds_added optional (own ts)
  have harmless : IsHarmless optional last t ↔ (IsOwn last → (words last).length ≠ 1 ∧
      ∀ f, Field.ofLine? optional last = some f → f.isUnique = false → "@unique".toList ∉ words h) ∧ own ts = [] := by
    constructor
    · intro harmless
      have ended := harmless.ended
      have unique := harmless.unique
      rw [hparts] at ended unique
      exact ⟨fun own => ⟨harmless.complete own, unique own⟩, (own_eq_nil_iff unmarkedParts).2 ended⟩
    · intro both
      obtain ⟨kept, none⟩ := both
      refine ⟨?_, fun own => (kept own).1, ?_⟩
      · rw [hparts]
        exact (own_eq_nil_iff unmarkedParts).1 none
      · rw [hparts]
        exact fun own => (kept own).2
  rw [split, own_single noMark, own_single unmarked, harmless]
  simp only [isOwn_commented_iff]
  by_cases hown : IsOwn last
  · obtain ⟨exceeds, same⟩ := exceeds_statement optional hown.notBlank h
    rw [if_pos hown, if_pos hown]
    have together := exceeds.append exceedsAdded
    rw [List.append_nil] at together
    refine ⟨together, ?_⟩
    have parts := same_append_iff exceeds exceedsAdded
    rw [List.append_nil] at parts
    rw [parts, same, sameAdded]
    simp [hown]
  · rw [if_neg hown, if_neg hown, List.nil_append]
    refine ⟨exceedsAdded, ?_⟩
    rw [sameAdded]
    simp [hown]

def lastPart (l : Text) : Text := (parts l).getLast (parts_ne_nil l)

/-- A comment goes on with the last statement of its line, up to the first semicolon in it. -/
theorem statementsOf_append_comment (notGap : ¬ IsGap l) (noComment : ¬ IsComment l) (noQuote : '"' ∉ t) :
    ∃ h ts, Text.splitAt ';' t = h :: ts ∧ statementsOf l = (parts l).dropLast ++ [lastPart l] ∧
      statementsOf (l ++ (" // ".toList ++ t)) = (parts l).dropLast ++ commented (lastPart l) h :: ts := by
  obtain ⟨h, ts, hparts⟩ := List.exists_cons_of_ne_nil (Text.splitAt_ne_nil ';' t)
  have still : ¬ IsComment (l ++ (" // ".toList ++ t)) := mt (isComment_commented_iff notGap t).1 noComment
  have whole : parts l = (parts l).dropLast ++ [lastPart l] := (List.dropLast_concat_getLast _).symm
  have noQuote' : '"' ∉ " // ".toList ++ t := by simpa using noQuote
  have split : Text.splitAt ';' (" // ".toList ++ t) = (" // ".toList ++ h) :: ts := by simp [Text.splitAt, hparts]
  refine ⟨h, ts, hparts, ?_⟩
  rw [statementsOf, statementsOf, if_neg noComment, if_neg still, parts_append noQuote' whole split]
  exact ⟨whole, rfl⟩

theorem exists_mark_of_noWords (notGap : ¬ IsGap l) (noComment : ¬ IsComment l) (noQuote : '"' ∉ t)
    (noWords : ¬ markWords <:+: t.map Char.toLower)
    (mark : ∃ s ∈ statementsOf (l ++ (" // ".toList ++ t)), IsMark s) : ∃ s ∈ statementsOf l, IsMark s := by
  obtain ⟨h, ts, hparts, without, withComment⟩ := statementsOf_append_comment notGap noComment noQuote
  have noMarks : ∀ s ∈ h :: ts, ¬ markWords <:+: s.map Char.toLower := by
    intro s hs inside
    exact noWords (inside.trans ((Text.infix_of_mem_splitAt (hparts ▸ hs)).map Char.toLower))
  rw [withComment] at mark
  rw [without]
  obtain ⟨s, hs, isMark⟩ := mark
  rcases List.mem_append.1 hs with hs | hs
  · exact ⟨s, List.mem_append_left _ hs, isMark⟩
  · rcases List.mem_cons.1 hs with rfl | hs
    · have last := (isMark_commented_iff (noMarks h List.mem_cons_self) (lastPart l)).1 isMark
      exact ⟨_, List.mem_append_right _ List.mem_cons_self, last⟩
    · exact absurd ((isMark_iff_words s).1 isMark).2 (noMarks s (List.mem_cons_of_mem h hs))

/-- A line of a block with a comment that may be put to its end: none to a blank line or to a line that is a comment, and
none that makes the relation mark. -/
structure CommentedLine where
  line : Text
  comment : Option Text
  oneLine : '\n' ∉ line
  declares : comment ≠ none → ¬ IsGap line ∧ ¬ IsComment line
  trailing : ∀ t ∈ comment, IsTrailing t
  marks : ∀ t ∈ comment, (∃ s ∈ statementsOf (line ++ (" // ".toList ++ t)), IsMark s) → ∃ s ∈ statementsOf line, IsMark s

namespace CommentedLine

variable (c : CommentedLine)

/-- The line, with its comment or without it. -/
def text (withComment : Bool) : Text :=
  match c.comment with
  | some t => c.line ++ (if withComment then " // ".toList ++ t else [])
  | none => c.line

def lastStatement : Text := lastPart c.line

/-- The line's comment, if it has one, neither adds a statement nor changes what the last one gives. -/
def IsHarmless (optional : List Text) : Prop := ∀ t ∈ c.comment, Schema.IsHarmless optional c.lastStatement t

/-- The relation mark is no statement of the line. -/
def IsUnmarked : Prop := ∀ s ∈ statementsOf c.line, ¬ IsMark s

instance : Decidable c.IsUnmarked := inferInstanceAs (Decidable (∀ s ∈ statementsOf c.line, ¬ IsMark s))

variable {c}

theorem text_false : c.text false = c.line := by
  rw [text]
  cases c.comment with
  | none => rfl
  | some t => exact List.append_nil c.line

theorem text_true_of_none (h : c.comment = none) : c.text true = c.line := by
  rw [text, h]

theorem text_true_of_some (h : c.comment = some t) : c.text true = c.line ++ (" // ".toList ++ t) := by
  rw [text, h]
  rfl

theorem statementsOf_text (hc : c.comment = some t) :
    ∃ h ts, Text.splitAt ';' t = h :: ts ∧ statementsOf c.line = (parts c.line).dropLast ++ [c.lastStatement] ∧
      statementsOf (c.text true) = (parts c.line).dropLast ++ commented c.lastStatement h :: ts := by
  obtain ⟨notGap, noComment⟩ := c.declares (by simp [hc])
  rw [text_true_of_some hc]
  exact statementsOf_append_comment notGap noComment (c.trailing t hc).noQuote

theorem exists_mark_text_iff : (∃ s ∈ statementsOf (c.text true), IsMark s) ↔ ∃ s ∈ statementsOf c.line, IsMark s := by
  cases hc : c.comment with
  | none => rw [text_true_of_none hc]
  | some t =>
    constructor
    · rw [text_true_of_some hc]
      exact c.marks t hc
    · intro mark
      obtain ⟨h, ts, hparts, without, withComment⟩ := statementsOf_text hc
      rw [without] at mark
      rw [withComment]
      obtain ⟨s, hs, isMark⟩ := mark
      rcases List.mem_append.1 hs with hs | hs
      · exact ⟨s, List.mem_append_left _ hs, isMark⟩
      · rw [List.mem_singleton.1 hs] at isMark
        exact ⟨_, List.mem_append_right _ List.mem_cons_self, isMark_commented isMark h⟩

theorem IsUnmarked.text (unmarked : c.IsUnmarked) : ∀ s ∈ statementsOf (c.text true), ¬ IsMark s := by
  intro s hs mark
  obtain ⟨u, hu, isMark⟩ := exists_mark_text_iff.1 ⟨s, hs, mark⟩
  exact unmarked u hu isMark

theorem exceeds_text (optional : List Text) (unmarked : c.IsUnmarked) :
    Exceeds optional (own (statementsOf c.line)) (own (statementsOf (c.text true))) ∧
      (Same optional (own (statementsOf c.line)) (own (statementsOf (c.text true))) ↔ c.IsHarmless optional) := by
  cases hc : c.comment with
  | none =>
    rw [text_true_of_none hc]
    exact ⟨.refl optional _, iff_of_true ⟨rfl, rfl⟩ (by simp [IsHarmless, hc])⟩
  | some t =>
    obtain ⟨h, ts, hparts, without, withComment⟩ := statementsOf_text hc
    have unmarkedToo := unmarked.text
    rw [withComment] at unmarkedToo
    rw [IsUnmarked, without] at unmarked
    have before : ∀ s ∈ (parts c.line).dropLast, ¬ IsMark s := fun s hs => unmarked s (List.mem_append_left _ hs)
    have noMark : ¬ IsMark c.lastStatement := unmarked c.lastStatement (by simp)
    obtain ⟨exceeds, same⟩ := exceeds_comment optional noMark hparts fun s hs =>
      unmarkedToo s (List.mem_append_right _ hs)
    have kept := Exceeds.refl optional (own (parts c.line).dropLast)
    have unchanged : Same optional (own (parts c.line).dropLast) (own (parts c.line).dropLast) := ⟨rfl, rfl⟩
    rw [without, withComment, own_append before, own_append before]
    refine ⟨kept.append exceeds, ?_⟩
    rw [same_append_iff kept exceeds, same, and_iff_right unchanged]
    simp [IsHarmless, hc]

theorem own_text_of_mark (mark : ∃ s ∈ statementsOf c.line, IsMark s) :
    own (statementsOf (c.text true)) = own (statementsOf c.line) := by
  cases hc : c.comment with
  | none => rw [text_true_of_none hc]
  | some t =>
    obtain ⟨h, ts, hparts, without, withComment⟩ := statementsOf_text hc
    rw [without] at mark
    rw [without, withComment]
    by_cases before : ∃ s ∈ (parts c.line).dropLast, IsMark s
    · rw [own_append_of_isMark before, own_append_of_isMark before]
    · have noMark : ∀ s ∈ (parts c.line).dropLast, ¬ IsMark s := fun s hs hmark => before ⟨s, hs, hmark⟩
      have last : IsMark c.lastStatement := by
        obtain ⟨s, hs, hmark⟩ := mark
        rcases List.mem_append.1 hs with hs | hs
        · exact absurd hmark (noMark s hs)
        · rwa [List.mem_singleton.1 hs] at hmark
      have lastToo := isMark_commented last h
      rw [own_append noMark, own_append noMark, own_cons, own_cons, if_pos last, if_pos lastToo]

end CommentedLine

end EntityScaffold.Schema
