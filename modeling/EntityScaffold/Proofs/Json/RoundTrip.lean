import EntityScaffold.Proofs.Entries
import EntityScaffold.Proofs.Json.Reader
import EntityScaffold.Proofs.Json.Written

/-
A value is read back from its written form, whatever the layout is and whether or not it is in ASCII only. The keys of each
object in it have to be different, since a reader keeps one member for a key.
-/

namespace EntityScaffold.Json

section Gaps

variable {c : Char} {g t : Text}

/-- What the layouts put between the parts of a value. -/
def IsGap (t : Text) : Prop := ∀ c ∈ t, isBlank c = true

theorem pastBlanks_gap (gap : IsGap g) (t : Text) : pastBlanks (g ++ t) = pastBlanks t :=
  List.dropWhile_append_of_pos gap

theorem pastBlanks_cons (h : isBlank c = false) (t : Text) : pastBlanks (c :: t) = c :: t :=
  List.dropWhile_cons_of_neg (by simp [h])

theorem stops_gap (gap : IsGap g) (h : Stops t) : Stops (g ++ t) := by
  cases g with
  | nil => exact h
  | cons c g =>
    refine stops_cons ?_ (g ++ t)
    have blank := gap c List.mem_cons_self
    simp only [isBlank, Bool.or_eq_true, decide_eq_true_eq] at blank
    rcases blank with ((rfl | rfl) | rfl) | rfl <;> decide

theorem isGap_lead (layout : Layout) (level : Nat) : IsGap (layout.lead level) := by
  intro c hc
  cases layout with
  | inline => exact absurd hc (by simp [Layout.lead])
  | indented width =>
    rcases List.mem_cons.1 hc with rfl | hc
    · decide
    · obtain rfl := List.eq_of_mem_replicate hc
      decide

theorem exists_gap_comma (layout : Layout) (level : Nat) : ∃ g, layout.comma level = ',' :: g ∧ IsGap g := by
  cases layout with
  | inline => exact ⟨[' '], rfl, List.forall_mem_singleton.2 (by decide)⟩
  | indented width => exact ⟨_, rfl, isGap_lead (.indented width) level⟩

end Gaps

section Sequences

variable {α : Type} {item : Text → Option (α × Text)} {shown : α → Text} {closing : Char} {g t : Text} {v : α} {vs : List α}
  {n : Nat}

/-- A reader gives an item back from its text, after blanks and before anything that no number goes on with. -/
def ReadsBack (item : Text → Option (α × Text)) (v : α) (t : Text) : Prop :=
  ∀ g r, IsGap g → Stops r → item (g ++ (t ++ r)) = some (v, r)

/-- The text starts with what is neither a blank nor the end of a list or an object. -/
def Opens (t : Text) : Prop := ∃ c r, t = c :: r ∧ isBlank c = false ∧ c ∉ [']', '\x7d']

theorem closing_apart : ∀ c ∈ [']', '\x7d'], isBlank c = false ∧ c ≠ ',' ∧ c.isDigit = false := by decide

/-- Items with commas and blanks between them are read back, up to the bracket that closes them. -/
theorem readSequence?_joinWith (hc : closing ∈ [']', '\x7d']) {between tail : Text} (gap : IsGap g) (hb : IsGap between)
    (ht : IsGap tail) (each : ∀ x ∈ v :: vs, ReadsBack item x (shown x)) (enough : vs.length < n) (r : Text) :
    readSequence? closing item n (g ++ (Text.joinWith (',' :: between) (shown v :: vs.map shown) ++ (tail ++ closing :: r))) =
      some (v :: vs, r) := by
  obtain ⟨shut, other, stop⟩ := closing_apart closing hc
  obtain ⟨n, rfl⟩ : ∃ m, n = m + 1 := ⟨n - 1, by omega⟩
  induction vs generalizing g n v with
  | nil =>
    have first := each v List.mem_cons_self g (tail ++ closing :: r) gap (stops_gap ht (stops_cons stop r))
    rw [Text.joinWith_cons, readSequence?]
    simp [first, pastBlanks_gap ht, pastBlanks_cons shut, other]
  | cons w ws ih =>
    obtain ⟨hv, hws⟩ := List.forall_mem_cons.1 each
    obtain ⟨n, rfl⟩ : ∃ m, n = m + 1 := ⟨n - 1, by simp at enough; omega⟩
    have rest := ih hb hws n (by simpa using enough)
    have first := hv g (',' :: (between ++ (Text.joinWith (',' :: between) (shown w :: ws.map shown) ++
      (tail ++ closing :: r)))) gap (stops_cons (by decide) _)
    have comma : isBlank ',' = false := by decide
    rw [Text.joinWith_cons, readSequence?]
    simp [first, pastBlanks_cons comma, rest]

theorem length_lt_escaped (a : Bool) (t r : Text) : t.length < (t.flatMap (escapeChar a) ++ '"' :: r).length := by
  have each (c : Char) : 1 ≤ (escapeChar a c).length := by
    have read := readChar?_escapeChar a c []
    cases hc : escapeChar a c with
    | nil => exact absurd read (by simp [hc, readChar?])
    | cons => simp
  have count : t.length ≤ (t.flatMap (escapeChar a)).length := by
    induction t with
    | nil => simp
    | cons c t ih =>
      have here := each c
      rw [List.flatMap_cons, List.length_append, List.length_cons]
      omega
  rw [List.length_append, List.length_cons]
  omega

theorem exists_string (a : Bool) (t r : Text) :
    ∃ u, string a t ++ r = '"' :: u ∧ readString? u.length u = some (t, r) :=
  ⟨t.flatMap (escapeChar a) ++ '"' :: r, by simp [string], readString?_string a t r (length_lt_escaped a t r)⟩

theorem Opens.ne_nil (h : Opens t) : t ≠ [] := by
  obtain ⟨c, r, rfl, -⟩ := h
  exact List.cons_ne_nil c r

theorem Opens.head?_pastBlanks (h : Opens t) (gap : IsGap g) (hc : closing ∈ [']', '\x7d']) (r : Text) :
    (pastBlanks (g ++ (t ++ r))).head? ≠ some closing := by
  obtain ⟨c, t, rfl, visible, other⟩ := h
  rw [pastBlanks_gap gap, List.cons_append, pastBlanks_cons visible]
  intro same
  exact other (Option.some.inj same ▸ hc)

theorem length_add_two_le_bracketed {items : List Text} (h : t ∈ items) (layout : Layout) (level : Nat)
    (opening closing : Char) :
    t.length + 2 ≤ (bracketed layout level opening closing items).length := by
  have inside := Text.length_le_joinWith_of_mem h (layout.comma (level + 1))
  have inhabited : items.isEmpty = false := by simpa using List.ne_nil_of_mem h
  simp only [bracketed, inhabited, Bool.false_eq_true, if_false, List.length_append, List.length_cons, List.length_nil]
  omega

theorem readBracketed?_bracketed (hc : closing ∈ [']', '\x7d']) (each : ∀ x ∈ vs, ReadsBack item x (shown x))
    (opens : ∀ x ∈ vs, Opens (shown x)) (layout : Layout) (level : Nat) (opening : Char) (r : Text) :
    ∃ t, bracketed layout level opening closing (vs.map shown) ++ r = opening :: t ∧
      readBracketed? closing item t = some (vs, r) := by
  obtain ⟨shut, -, -⟩ := closing_apart closing hc
  -- Empty brackets have nothing in them, not even a blank; else the first item shows that there is one to read.
  cases vs with
  | nil =>
    refine ⟨closing :: r, rfl, ?_⟩
    rw [readBracketed?, pastBlanks_cons shut]
    simp
  | cons v vs =>
    obtain ⟨between, comma, hb⟩ := exists_gap_comma layout (level + 1)
    let inside := Text.joinWith (',' :: between) ((v :: vs).map shown) ++ (layout.lead level ++ closing :: r)
    refine ⟨layout.lead (level + 1) ++ inside, by simp [bracketed, comma, inside], ?_⟩
    have gap := isGap_lead layout (level + 1)
    have opened : (pastBlanks (layout.lead (level + 1) ++ inside)).head? ≠ some closing := by
      simp only [inside, List.map_cons, Text.joinWith_cons, List.append_assoc]
      exact (opens v List.mem_cons_self).head?_pastBlanks gap hc _
    have enough : vs.length < (layout.lead (level + 1) ++ inside).length := by
      have count := Text.length_le_joinWith (List.forall_mem_map.2 fun x hx => (opens x hx).ne_nil) (',' :: between)
      simp only [inside, List.length_append, List.length_cons, List.length_map] at count ⊢
      omega
    rw [readBracketed?, if_neg opened]
    exact readSequence?_joinWith hc gap hb (isGap_lead layout level) each enough r

theorem ReadsBack.member {value : Text → Option (α × Text)} {t : Text} (h : ReadsBack value v t) (form : Form) (key : Text) :
    ReadsBack (readMember? value) (key, v) (writeKey form key ++ t) := by
  intro g r gap stops
  have quote : isBlank '"' = false := by decide
  have colon : isBlank ':' = false := by decide
  have read : value (' ' :: (t ++ r)) = some (v, r) := h [' '] r (List.forall_mem_singleton.2 (by decide)) stops
  obtain ⟨u, opened, string⟩ := exists_string form.asciiOnly key (':' :: ' ' :: (t ++ r))
  have parts : writeKey form key ++ t ++ r = '"' :: u := by
    rw [← opened]
    simp [writeKey]
  have quoted : ['"'].isPrefixOf? ('"' :: u) = some u := List.isPrefixOf?_eq_some_iff_append_eq.2 rfl
  have named : [':'].isPrefixOf? (':' :: ' ' :: (t ++ r)) = some (' ' :: (t ++ r)) :=
    List.isPrefixOf?_eq_some_iff_append_eq.2 rfl
  rw [parts, readMember?, pastBlanks_gap gap, pastBlanks_cons quote]
  simp [quoted, string, pastBlanks_cons colon, named, read]

end Sequences

section Values

variable {c : Char} {g r : Text} {n : Nat} {v : Json}

/-- No two members of one object have one key. -/
inductive IsKeyed : Json → Prop
  | null : IsKeyed null
  | bool (b : Bool) : IsKeyed (bool b)
  | number (i : Int) : IsKeyed (number i)
  | text (t : Text) : IsKeyed (text t)
  | list {items : List Json} (each : ∀ v ∈ items, IsKeyed v) : IsKeyed (list items)
  | object {members : List (Text × Json)} (distinct : (members.map (·.1)).Nodup) (each : ∀ m ∈ members, IsKeyed m.2) :
    IsKeyed (object members)

theorem ofMembers_eq {members : List (Text × Json)} (distinct : (members.map (·.1)).Nodup) :
    ofMembers members = object members := by
  rw [ofMembers, Entries.foldl_put Prod.fst Prod.snd [] distinct]
  simp

theorem readValue?_gap (gap : IsGap g) (n : Nat) (t : Text) : readValue? n (g ++ t) = readValue? n t := by
  cases n with
  | zero => rfl
  | succ n => rw [readValue?, readValue?, pastBlanks_gap gap]

/-- What a value is read by: its first character. -/
theorem readValue?_cons (h : isBlank c = false) (n : Nat) (r : Text) : readValue? (n + 1) (c :: r) =
    if c = '"' then (readString? r.length r).map fun p => (text p.1, p.2)
    else if c = '[' then (readBracketed? ']' (readValue? n) r).map fun p => (list p.1, p.2)
    else if c = '\x7b' then (readBracketed? '\x7d' (readMember? (readValue? n)) r).map fun p => (ofMembers p.1, p.2)
    else (readWord? (c :: r)).or ((readNumber? (c :: r)).map fun p => (number p.1, p.2)) := by
  rw [readValue?, pastBlanks_cons h]

section Numerals

variable (numeral : c = '-' ∨ c.isDigit = true)
include numeral

theorem numeral_ne {d : Char} (other : (d == '-' || d.isDigit) = false) : c ≠ d := by
  rintro rfl
  rcases numeral with rfl | digit
  · exact absurd other (by decide)
  · simp [digit] at other

theorem isBlank_numeral : isBlank c = false := by
  simp only [isBlank, numeral_ne numeral (d := ' ') rfl, numeral_ne numeral (d := '\t') rfl,
    numeral_ne numeral (d := '\n') rfl, numeral_ne numeral (d := '\r') rfl, decide_false, Bool.or_self]

theorem readValue?_numeral (n : Nat) (r : Text) :
    readValue? (n + 1) (c :: r) = (readNumber? (c :: r)).map fun p => (number p.1, p.2) := by
  have apart {d : Char} (other : (d == '-' || d.isDigit) = false) (w : Text) : (d :: w).isPrefixOf? (c :: r) = none := by
    refine Option.eq_none_iff_forall_ne_some.2 fun s hs => ?_
    obtain ⟨rfl, -⟩ := List.cons.inj (List.isPrefixOf?_eq_some_iff_append_eq.1 hs)
    exact numeral_ne numeral other rfl
  have noWord : readWord? (c :: r) = none := by
    simp [readWord?, apart (d := 'n') rfl, apart (d := 't') rfl, apart (d := 'f') rfl]
  rw [readValue?_cons (isBlank_numeral numeral), if_neg (numeral_ne numeral rfl), if_neg (numeral_ne numeral rfl),
    if_neg (numeral_ne numeral rfl), noWord]
  rfl

end Numerals

theorem exists_ofInt (i : Int) : ∃ c t, Text.ofInt i = c :: t ∧ (c = '-' ∨ c.isDigit = true) := by
  have read := readNumber?_ofInt (r := []) (by simp [Stops]) i
  cases h : Text.ofInt i with
  | nil => exact absurd read (by simp [h, readNumber?])
  | cons c t => exact ⟨c, t, rfl, Text.mem_ofInt (i := i) (h ▸ List.mem_cons_self)⟩

theorem opens_write (form : Form) (level : Nat) (v : Json) : Opens (write form level v) := by
  have bracket (opening closing : Char) (items : List Text) (plain : isBlank opening = false)
      (other : opening ∉ [']', '\x7d']) : Opens (bracketed form.layout level opening closing items) := by
    unfold bracketed
    split
    · exact ⟨opening, _, rfl, plain, other⟩
    · exact ⟨opening, _, rfl, plain, other⟩
  cases v with
  | null => rw [write]; exact ⟨'n', _, rfl, by decide, by decide⟩
  | bool b =>
    rw [write]
    cases b with
    | false => exact ⟨'f', _, rfl, by decide, by decide⟩
    | true => exact ⟨'t', _, rfl, by decide, by decide⟩
  | number i =>
    obtain ⟨c, t, shown, numeral⟩ := exists_ofInt i
    rw [write]
    have other : c ∉ [']', '\x7d'] := by
      simp [numeral_ne numeral (d := ']') rfl, numeral_ne numeral (d := '\x7d') rfl]
    exact ⟨c, t, shown, isBlank_numeral numeral, other⟩
  | text t => rw [write]; exact ⟨'"', _, rfl, by decide, by decide⟩
  | list items => rw [write]; exact bracket _ _ _ (by decide) (by decide)
  | object members => rw [write]; exact bracket _ _ _ (by decide) (by decide)

theorem opens_writeMember (form : Form) (level : Nat) (m : Text × Json) : Opens (writeMember form level m) :=
  ⟨'"', _, rfl, by decide, by decide⟩

theorem ReadsBack.of_cons {t : Text} (h : ∀ r, Stops r → readValue? n (t ++ r) = some (v, r)) :
    ReadsBack (readValue? n) v t := by
  intro g r gap stops
  rw [readValue?_gap gap]
  exact h r stops

variable {form : Form} {level : Nat}

theorem readsBack_number (i : Int) : ReadsBack (readValue? (n + 1)) (number i) (write form level (number i)) := by
  refine .of_cons fun r stops => ?_
  obtain ⟨c, t, shown, numeral⟩ := exists_ofInt i
  have read := readNumber?_ofInt stops i
  rw [write]
  rw [shown, List.cons_append] at read ⊢
  rw [readValue?_numeral numeral, read]
  rfl

theorem readsBack_text (t : Text) : ReadsBack (readValue? (n + 1)) (text t) (write form level (text t)) := by
  refine .of_cons fun r _ => ?_
  obtain ⟨u, opened, read⟩ := exists_string form.asciiOnly t r
  rw [write, opened, readValue?_cons (by decide), if_pos rfl, read]
  rfl

theorem readsBack_list {items : List Json}
    (each : ∀ v ∈ items, ReadsBack (readValue? n) v (write form (level + 1) v)) :
    ReadsBack (readValue? (n + 1)) (list items) (write form level (list items)) := by
  refine .of_cons fun r _ => ?_
  have bracket : ']' ∈ [']', '\x7d'] := by decide
  obtain ⟨t, opened, read⟩ := readBracketed?_bracketed bracket each (fun v _ => opens_write form (level + 1) v) form.layout
    level '[' r
  rw [write_list, opened, readValue?_cons (by decide), if_neg (by decide), if_pos rfl, read]
  rfl

theorem readsBack_object {members : List (Text × Json)} (distinct : (members.map (·.1)).Nodup)
    (each : ∀ m ∈ members, ReadsBack (readValue? n) m.2 (write form (level + 1) m.2)) :
    ReadsBack (readValue? (n + 1)) (object members) (write form level (object members)) := by
  refine .of_cons fun r _ => ?_
  have bracket : '\x7d' ∈ [']', '\x7d'] := by decide
  have readMember : ∀ m ∈ members, ReadsBack (readMember? (readValue? n)) m (writeMember form (level + 1) m) :=
    fun m hm => (each m hm).member form m.1
  obtain ⟨t, opened, read⟩ := readBracketed?_bracketed bracket readMember
    (fun m _ => opens_writeMember form (level + 1) m) form.layout level '\x7b' r
  rw [write_object, opened, readValue?_cons (by decide), if_neg (by decide), if_neg (by decide), if_pos rfl, read,
    Option.map_some, ofMembers_eq distinct]

theorem exists_succ (enough : (write form level v).length ≤ n) : ∃ m, n = m + 1 := by
  obtain ⟨c, t, shown, -⟩ := opens_write form level v
  rw [shown, List.length_cons] at enough
  exact ⟨n - 1, by omega⟩

theorem readsBack_write (keyed : IsKeyed v) (enough : (write form level v).length ≤ n) :
    ReadsBack (readValue? n) v (write form level v) := by
  -- By the parts of the value: a part's text is shorter than the whole by its brackets, which pay for one step into it.
  induction keyed generalizing level n with
  | null =>
    obtain ⟨n, rfl⟩ := exists_succ enough
    exact .of_cons fun r _ => by rw [write]; rfl
  | bool b =>
    obtain ⟨n, rfl⟩ := exists_succ enough
    exact .of_cons fun r _ => by cases b <;> rw [write] <;> rfl
  | number i =>
    obtain ⟨n, rfl⟩ := exists_succ enough
    exact readsBack_number i
  | text t =>
    obtain ⟨n, rfl⟩ := exists_succ enough
    exact readsBack_text t
  | list each ih =>
    obtain ⟨n, rfl⟩ := exists_succ enough
    rw [write_list] at enough
    refine readsBack_list fun v hv => ih v hv ?_
    have shorter := length_add_two_le_bracketed (List.mem_map_of_mem (f := write form (level + 1)) hv) form.layout level
      '[' ']'
    omega
  | object distinct each ih =>
    obtain ⟨n, rfl⟩ := exists_succ enough
    rw [write_object] at enough
    refine readsBack_object distinct fun m hm => ih m hm ?_
    have shorter := length_add_two_le_bracketed (List.mem_map_of_mem (f := writeMember form (level + 1)) hm) form.layout
      level '\x7b' '\x7d'
    rw [writeMember, List.length_append] at shorter
    omega

/-- Reading undoes writing. -/
theorem read?_render (keyed : IsKeyed v) (form : Form) : read? (render form v) = some v := by
  have read : readValue? (render form v).length ([] ++ (render form v ++ [])) = some (v, []) :=
    readsBack_write keyed (Nat.le_refl _) [] [] (by simp [IsGap]) (by simp [Stops])
  rw [List.nil_append, List.append_nil] at read
  rw [read?, read]
  rfl

example : read? "[\"\\ud834\\udd1e\", -5]".toList = some (.list [.text "𝄞".toList, .number (-5)]) := by cbv

end Values

end EntityScaffold.Json
