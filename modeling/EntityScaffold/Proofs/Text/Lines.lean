import EntityScaffold.Proofs.Text.Search
import Mathlib.Algebra.GroupWithZero.Nat

/-
A text as its lines. What a needle without a line feed does in a text, it does in the lines.
-/

namespace EntityScaffold.Text

abbrev lines (t : Text) : List Text := splitAt '\n' t

def ended (ls : List Text) : Text := ls.flatMap (· ++ ['\n'])

def led (ls : List Text) : Text := ls.flatMap ('\n' :: ·)

/-- A line between whole lines. -/
def between (us : List Text) (l : Text) (vs : List Text) : Text := ended us ++ l ++ led vs

@[simp] theorem ended_nil : ended [] = [] := rfl

@[simp] theorem ended_cons (l : Text) (ls : List Text) : ended (l :: ls) = l ++ '\n' :: ended ls := by
  simp [ended]

@[simp] theorem ended_append (us vs : List Text) : ended (us ++ vs) = ended us ++ ended vs := by
  simp [ended]

@[simp] theorem led_nil : led [] = [] := rfl

@[simp] theorem led_cons (l : Text) (ls : List Text) : led (l :: ls) = '\n' :: (l ++ led ls) := by
  simp [led]

theorem splitAt_of_not_mem {sep : Char} {t : Text} (h : sep ∉ t) : splitAt sep t = [t] := by
  induction t with
  | nil => rfl
  | cons c r ih =>
    obtain ⟨hc, hr⟩ := not_or.1 (mt List.mem_cons.2 h)
    simp [splitAt, Ne.symm hc, ih hr]

theorem splitAt_append_cons (sep : Char) (a b : Text) :
    splitAt sep (a ++ sep :: b) = splitAt sep a ++ splitAt sep b := by
  induction a with
  | nil => simp [splitAt]
  | cons c r ih =>
    by_cases hc : c = sep
    · simp [splitAt, hc, ih]
    · cases hr : splitAt sep r with
      | nil => exact absurd hr (splitAt_ne_nil sep r)
      | cons p ps => simp [splitAt, hc, ih, hr]

theorem joinWith_cons_cons (sep : Char) (t u : Text) (ts : List Text) :
    joinWith [sep] (t :: u :: ts) = t ++ sep :: joinWith [sep] (u :: ts) := by
  simp [joinWith, List.intercalate_cons_cons]

theorem joinWith_cons (sep t : Text) (ts : List Text) :
    joinWith sep (t :: ts) = t ++ if ts.isEmpty then [] else sep ++ joinWith sep ts := by
  cases ts with
  | nil => simp [joinWith]
  | cons u ts => simp [joinWith, List.intercalate_cons_cons]

theorem mem_joinWith {c : Char} {sep : Text} {ts : List Text} (h : c ∈ joinWith sep ts) : c ∈ sep ∨ ∃ t ∈ ts, c ∈ t := by
  induction ts with
  | nil => exact absurd h (by simp [joinWith])
  | cons t ts ih =>
    rw [joinWith_cons, List.mem_append] at h
    rcases h with here | later
    · exact Or.inr ⟨t, List.mem_cons_self, here⟩
    · split at later
      · exact absurd later (by simp)
      · rcases List.mem_append.1 later with between | later
        · exact Or.inl between
        · refine (ih later).imp_right ?_
          rintro ⟨u, hu, hc⟩
          exact ⟨u, List.mem_cons_of_mem t hu, hc⟩

theorem length_le_joinWith_of_mem {t : Text} {ts : List Text} (h : t ∈ ts) (sep : Text) :
    t.length ≤ (joinWith sep ts).length := by
  induction ts with
  | nil => exact absurd h (by simp)
  | cons u ts ih =>
    rw [joinWith_cons, List.length_append]
    rcases List.mem_cons.1 h with rfl | h
    · exact Nat.le_add_right _ _
    · have later := ih h
      have inhabited : ts.isEmpty = false := by simpa using List.ne_nil_of_mem h
      simp only [inhabited, Bool.false_eq_true, if_false, List.length_append]
      omega

theorem length_le_joinWith {ts : List Text} (h : ∀ t ∈ ts, t ≠ []) (sep : Text) :
    ts.length ≤ (joinWith sep ts).length := by
  induction ts with
  | nil => simp
  | cons t ts ih =>
    obtain ⟨ht, hts⟩ := List.forall_mem_cons.1 h
    have here := List.length_pos_iff.2 ht
    have later := ih hts
    rw [joinWith_cons, List.length_cons, List.length_append]
    split
    · next none =>
      rw [List.isEmpty_iff.1 none, List.length_nil]
      omega
    · rw [List.length_append]
      omega

theorem splitAt_joinWith {sep : Char} {ps : List Text} (ne : ps ≠ []) (h : ∀ part ∈ ps, sep ∉ part) :
    splitAt sep (joinWith [sep] ps) = ps := by
  induction ps with
  | nil => exact absurd rfl ne
  | cons p ps ih =>
    have own : sep ∉ p := h p List.mem_cons_self
    cases ps with
    | nil => simpa [joinWith] using splitAt_of_not_mem own
    | cons q qs =>
      have rest := ih (List.cons_ne_nil q qs) fun part hm => h part (List.mem_cons_of_mem _ hm)
      rw [joinWith_cons_cons, splitAt_append_cons, splitAt_of_not_mem own, rest]
      rfl

theorem not_mem_of_mem_splitAt {sep : Char} {t l : Text} (h : l ∈ splitAt sep t) : sep ∉ l := by
  induction t generalizing l with
  | nil =>
    obtain rfl : l = [] := by simpa [splitAt] using h
    simp
  | cons c r ih =>
    by_cases hc : c = sep
    · rcases List.mem_cons.1 (by simpa [splitAt, hc] using h) with rfl | hl
      · simp
      · exact ih hl
    · cases hr : splitAt sep r with
      | nil => exact absurd hr (splitAt_ne_nil sep r)
      | cons p ps =>
        rw [hr] at ih
        rcases List.mem_cons.1 (by simpa [splitAt, hc, hr] using h) with rfl | hl
        · have := ih List.mem_cons_self
          simp [Ne.symm hc, this]
        · exact ih (List.mem_cons_of_mem p hl)

theorem infix_of_mem_splitAt {sep : Char} {t l : Text} (h : l ∈ splitAt sep t) : l <:+: t := by
  induction t generalizing l with
  | nil =>
    obtain rfl : l = [] := by simpa [splitAt] using h
    exact List.infix_rfl
  | cons c r ih =>
    obtain ⟨p, ps, hps⟩ := List.exists_cons_of_ne_nil (splitAt_ne_nil sep r)
    have first : p <+: r := by
      rw [← intercalate_splitAt sep r, hps]
      cases ps with
      | nil => simp
      | cons q qs =>
        rw [List.intercalate_cons_cons, List.append_assoc]
        exact List.prefix_append _ _
    by_cases hc : c = sep
    · rcases List.mem_cons.1 (by simpa [splitAt, hc] using h) with rfl | hl
      · exact List.nil_infix
      · exact (ih hl).trans (List.suffix_cons c r).isInfix
    · rcases List.mem_cons.1 (by simpa [splitAt, hc, hps] using h) with rfl | hl
      · exact ((List.prefix_cons_inj c).2 first).isInfix
      · exact (ih (hps ▸ List.mem_cons_of_mem p hl)).trans (List.suffix_cons c r).isInfix

theorem lines_ne_nil (t : Text) : lines t ≠ [] := splitAt_ne_nil '\n' t

theorem lines_ended_append {us : List Text} (hus : ∀ u ∈ us, '\n' ∉ u) (t : Text) :
    lines (ended us ++ t) = us ++ lines t := by
  induction us with
  | nil => rfl
  | cons u us ih =>
    rw [ended_cons, List.append_assoc, List.cons_append, lines, splitAt_append_cons,
      splitAt_of_not_mem (hus u List.mem_cons_self)]
    simpa using ih fun v hv => hus v (List.mem_cons_of_mem u hv)

theorem lines_append_led {vs : List Text} (hvs : ∀ v ∈ vs, '\n' ∉ v) (t : Text) :
    lines (t ++ led vs) = lines t ++ vs := by
  induction vs generalizing t with
  | nil => simp
  | cons v vs ih =>
    have hv := hvs v List.mem_cons_self
    rw [led_cons, lines, splitAt_append_cons]
    have := ih (fun w hw => hvs w (List.mem_cons_of_mem v hw)) v
    simp only [lines, splitAt_of_not_mem hv] at this
    rw [this]
    simp

theorem lines_between {us : List Text} {l : Text} {vs : List Text} (hus : ∀ u ∈ us, '\n' ∉ u) (hl : '\n' ∉ l)
    (hvs : ∀ v ∈ vs, '\n' ∉ v) : lines (between us l vs) = us ++ l :: vs := by
  rw [between, List.append_assoc, lines_ended_append hus, lines_append_led hvs, lines, splitAt_of_not_mem hl]
  rfl

theorem intercalate_eq_led (l : Text) (ls : List Text) : ['\n'].intercalate (l :: ls) = l ++ led ls := by
  induction ls generalizing l with
  | nil => simp
  | cons m ls ih =>
    rw [List.intercalate_cons_cons, ih m]
    simp

theorem intercalate_eq_between (us : List Text) (l : Text) (vs : List Text) :
    ['\n'].intercalate (us ++ l :: vs) = between us l vs := by
  induction us with
  | nil => simpa [between] using intercalate_eq_led l vs
  | cons u us ih =>
    cases us with
    | nil => simp [between, List.intercalate_cons_cons, intercalate_eq_led]
    | cons w us =>
      rw [List.cons_append, List.cons_append, List.intercalate_cons_cons, ← List.cons_append, ih]
      simp [between]

theorem ended_append_eq_between {ls us vs : List Text} {last l : Text} (h : ls ++ [last] = us ++ l :: vs) :
    ended ls ++ last = between us l vs := by
  have joined := intercalate_eq_between ls last []
  rw [h, intercalate_eq_between] at joined
  simpa [between] using joined.symm

theorem eq_led_of_lines {t l : Text} {ls : List Text} (h : lines t = l :: ls) : t = l ++ led ls := by
  rw [← intercalate_eq_led, ← h, intercalate_splitAt]

/-- How often the needle starts in lines. -/
def occurrencesIn (needle : Text) (ls : List Text) : Nat := (ls.map (occurrences needle)).sum

@[simp] theorem occurrencesIn_nil (needle : Text) : occurrencesIn needle [] = 0 := rfl

@[simp] theorem occurrencesIn_cons (needle l : Text) (ls : List Text) :
    occurrencesIn needle (l :: ls) = occurrences needle l + occurrencesIn needle ls := by
  simp [occurrencesIn]

@[simp] theorem occurrencesIn_append (needle : Text) (us vs : List Text) :
    occurrencesIn needle (us ++ vs) = occurrencesIn needle us + occurrencesIn needle vs := by
  simp [occurrencesIn]

theorem occurrencesIn_pos_iff {needle : Text} {ls : List Text} (hn : needle ≠ []) :
    0 < occurrencesIn needle ls ↔ ∃ l ∈ ls, needle <:+: l := by
  induction ls with
  | nil => simp
  | cons l ls ih =>
    rw [occurrencesIn_cons, List.exists_mem_cons_iff, ← ih, ← occurrences_pos_iff hn]
    omega

/-- A needle without a line feed is found line by line. -/
theorem occurrences_eq_lines {needle : Text} (hn : needle ≠ []) (hline : '\n' ∉ needle) (t : Text) :
    occurrences needle t = occurrencesIn needle (lines t) := by
  obtain ⟨l, ls, h⟩ := List.exists_cons_of_ne_nil (lines_ne_nil t)
  rw [h, eq_led_of_lines h]
  clear h
  induction ls generalizing l with
  | nil => simp
  | cons m ls ih =>
    rw [led_cons, occurrences_append_cons hline hn, ih m]
    simp

theorem infix_iff_lines {needle t : Text} (hn : needle ≠ []) (hline : '\n' ∉ needle) :
    needle <:+: t ↔ ∃ l ∈ lines t, needle <:+: l := by
  rw [← occurrences_pos_iff hn, occurrences_eq_lines hn hline, occurrencesIn_pos_iff hn]

/-- The lines before the first one with the needle, that line, and the lines after it. -/
def firstWith? (needle : Text) : List Text → Option (List Text × Text × List Text)
  | [] => none
  | l :: ls => if has l needle then some ([], l, ls) else (firstWith? needle ls).map fun p => (l :: p.1, p.2)

theorem firstWith?_eq_none_iff {needle : Text} {ls : List Text} :
    firstWith? needle ls = none ↔ ∀ l ∈ ls, ¬ needle <:+: l := by
  induction ls with
  | nil => simp [firstWith?]
  | cons l ls ih =>
    by_cases h : has l needle = true
    · simp [firstWith?, h, has_iff.1 h]
    · simp [firstWith?, h, ih, mt has_iff.2 h]

theorem firstWith?_eq_some_iff {needle l : Text} {ls us vs : List Text} :
    firstWith? needle ls = some (us, l, vs) ↔
      ls = us ++ l :: vs ∧ (∀ u ∈ us, ¬ needle <:+: u) ∧ needle <:+: l := by
  induction ls generalizing us with
  | nil => simp [firstWith?]
  | cons m ls ih =>
    by_cases h : has m needle = true
    · have hm := has_iff.1 h
      cases us with
      | nil =>
        simp only [firstWith?, h, if_true, Option.some.injEq, Prod.mk.injEq, true_and, List.nil_append,
          List.cons.injEq, List.not_mem_nil, false_implies, implies_true]
        exact ⟨fun ⟨hl, hv⟩ => ⟨⟨hl, hv⟩, hl ▸ hm⟩, fun ⟨hl, _⟩ => hl⟩
      | cons u us =>
        simp only [firstWith?, h, if_true, Option.some.injEq, Prod.mk.injEq, List.nil_eq, reduceCtorEq, false_and,
          List.cons_append, List.cons.injEq, List.forall_mem_cons, false_iff]
        rintro ⟨⟨rfl, -⟩, ⟨hu, -⟩, -⟩
        exact hu hm
    · have hm := mt has_iff.2 h
      simp only [firstWith?, h, Bool.false_eq_true, if_false, Option.map_eq_some_iff, Prod.exists, Prod.mk.injEq]
      constructor
      · rintro ⟨us', l', vs', hs, rfl, rfl, rfl⟩
        obtain ⟨rfl, hus, hl⟩ := ih.1 hs
        exact ⟨rfl, by simpa [hm] using hus, hl⟩
      · rintro ⟨he, hus, hl⟩
        cases us with
        | nil =>
          obtain ⟨rfl, -⟩ := List.cons.inj he
          exact absurd hl hm
        | cons u us =>
          obtain ⟨rfl, rfl⟩ := List.cons.inj he
          exact ⟨us, l, vs, ih.2 ⟨rfl, fun u hu => hus u (List.mem_cons_of_mem _ hu), hl⟩, rfl, rfl, rfl⟩

theorem firstWith?_append (needle : Text) (us vs : List Text) :
    firstWith? needle (us ++ vs) = match firstWith? needle us with
      | some (a, l, b) => some (a, l, b ++ vs)
      | none => (firstWith? needle vs).map fun p => (us ++ p.1, p.2) := by
  induction us with
  | nil => simp [firstWith?]
  | cons u us ih =>
    by_cases h : has u needle = true
    · simp [firstWith?, h]
    · rw [List.cons_append, firstWith?, if_neg h, ih, firstWith?, if_neg h]
      cases firstWith? needle us with
      | none => cases firstWith? needle vs <;> simp
      | some p => simp

/-- A cut at a needle without a line feed lies in the first line that has the needle. -/
theorem cut?_eq_firstWith? {needle : Text} (hn : needle ≠ []) (hline : '\n' ∉ needle) (t : Text) :
    cut? needle t = (firstWith? needle (lines t)).bind fun (us, l, vs) =>
      (cut? needle l).map fun (x, y) => (ended us ++ x, y ++ led vs) := by
  obtain ⟨l, ls, h⟩ := List.exists_cons_of_ne_nil (lines_ne_nil t)
  rw [h, eq_led_of_lines h]
  clear h
  induction ls generalizing l with
  | nil =>
    by_cases h : has l needle = true
    · simp [firstWith?, h]
    · simp [firstWith?, h, cut?_eq_none_iff, ← has_iff]
  | cons m ls ih =>
    by_cases h : has l needle = true
    · cases hc : cut? needle l with
      | none => simp [has, hc] at h
      | some p => simp [firstWith?, h, cut?_append_left hc, hc]
    · have hl := mt has_iff.2 h
      have step : cut? needle (l ++ led (m :: ls)) = (cut? needle (m ++ led ls)).map fun p => (l ++ '\n' :: p.1, p.2) := by
        have hl' : ¬ needle <:+: l ++ ['\n'] := by
          rw [← occurrences_eq_zero_iff hn, occurrences_append_cons hline hn, Nat.add_eq_zero_iff]
          exact ⟨(occurrences_eq_zero_iff hn).2 hl, rfl⟩
        have := cut?_append_right hl' (not_straddles_concat hline l (m ++ led ls))
        simpa using this
      rw [step, ih m, show firstWith? needle (l :: m :: ls) = _ from if_neg h]
      cases firstWith? needle (m :: ls) with
      | none => rfl
      | some p =>
        simp only [Option.map_some, Option.bind_some, Option.map_map]
        congr 1
        funext q
        simp

end EntityScaffold.Text
