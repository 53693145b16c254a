import EntityScaffold.Schema.Block
import EntityScaffold.Proofs.Text.Lines
import Mathlib.Data.List.TakeWhile

/- Where a block is found in a schema, by lines: at the first line that is its header, and up to the next closing brace. -/

namespace EntityScaffold.Schema

open Text (ended)

variable {entity : Text}

theorem isPrefixOf?_append_lineFeed {w : Text} (hw : '\n' ∉ w) (l r : Text) :
    w.isPrefixOf? (l ++ '\n' :: r) = (w.isPrefixOf? l).map (· ++ '\n' :: r) := by
  induction w generalizing l with
  | nil => simp [List.isPrefixOf?]
  | cons c w ih =>
    obtain ⟨hc, hw⟩ := not_or.1 (mt List.mem_cons.2 hw)
    cases l with
    | nil => simp [List.isPrefixOf?, Ne.symm hc]
    | cons d l =>
      have := ih hw l
      by_cases hd : c = d
      · simpa [List.isPrefixOf?, hd] using this
      · simp [List.isPrefixOf?, hd]

theorem afterName?_append_lineFeed (h : '\n' ∉ entity) (l r : Text) :
    afterName? entity (l ++ '\n' :: r) = (afterName? entity l).map (· ++ '\n' :: r) := by
  rw [afterName?, afterName?, isPrefixOf?_append_lineFeed h]
  cases entity.isPrefixOf? l with
  | none => rfl
  | some x =>
    simp only [Option.map_some, Text.dropWhile_append_cons (show isGap '\n' = false by decide)]
    cases x.dropWhile isGap with
    | nil => rfl
    | cons c y => by_cases hc : c = '\x7b' <;> simp [hc]

theorem afterGap?_append_lineFeed (h : '\n' ∉ entity) (l r : Text) :
    afterGap? entity (l ++ '\n' :: r) = (afterGap? entity l).map (· ++ '\n' :: r) := by
  induction l with
  | nil => rfl
  | cons c l ih =>
    rw [List.cons_append, afterGap?, afterGap?, ih, afterName?_append_lineFeed h]
    cases isGap c <;> cases afterGap? entity l <;> simp

theorem afterHeader?_append_lineFeed (h : '\n' ∉ entity) (l r : Text) :
    afterHeader? entity (l ++ '\n' :: r) = (afterHeader? entity l).map (· ++ '\n' :: r) := by
  rw [afterHeader?, afterHeader?, Text.dropWhile_append_cons (show isGap '\n' = false by decide),
    isPrefixOf?_append_lineFeed (by decide)]
  cases "model".toList.isPrefixOf? (l.dropWhile isGap) with
  | none => rfl
  | some x => exact afterGap?_append_lineFeed h x r

theorem blockFrom?_line (h : '\n' ∉ entity) {l : Text} (hl : '\n' ∉ l) (none : afterHeader? entity l = none) (r : Text) :
    blockFrom? entity true (l ++ '\n' :: r) = blockFrom? entity true r := by
  have within (l : Text) (hl : '\n' ∉ l) : blockFrom? entity false (l ++ '\n' :: r) = blockFrom? entity true r := by
    induction l with
    | nil => simp [blockFrom?]
    | cons c l ih =>
      obtain ⟨hc, hl⟩ := not_or.1 (mt List.mem_cons.2 hl)
      simpa [blockFrom?, Ne.symm hc] using ih hl
  have here : blockHere? entity (l ++ '\n' :: r) = .none := by
    rw [blockHere?, afterHeader?_append_lineFeed h, none]
    rfl
  cases l with
  | nil =>
    rw [List.nil_append] at here ⊢
    simp [blockFrom?, here]
  | cons c l =>
    obtain ⟨hc, hl⟩ := not_or.1 (mt List.mem_cons.2 hl)
    rw [List.cons_append] at here ⊢
    rw [blockFrom?, if_pos rfl, here, Option.none_or]
    simpa [Ne.symm hc] using within l hl

theorem blockFrom?_lines (h : '\n' ∉ entity) {ls : List Text} (hls : ∀ l ∈ ls, '\n' ∉ l ∧ afterHeader? entity l = none)
    (r : Text) : blockFrom? entity true (ended ls ++ r) = blockFrom? entity true r := by
  induction ls with
  | nil => rfl
  | cons l ls ih =>
    obtain ⟨hl, none⟩ := hls l List.mem_cons_self
    rw [Text.ended_cons, List.append_assoc, List.cons_append, blockFrom?_line h hl none]
    exact ih fun m hm => hls m (List.mem_cons_of_mem l hm)

theorem isPrefixOf?_append (w t : Text) : w.isPrefixOf? (w ++ t) = some t :=
  List.isPrefixOf?_eq_some_iff_append_eq.2 rfl

theorem blockFrom?_last {l : Text} (hl : '\n' ∉ l) (none : afterHeader? entity l = none) :
    blockFrom? entity true l = .none := by
  have within (l : Text) (hl : '\n' ∉ l) : blockFrom? entity false l = .none := by
    induction l with
    | nil => rfl
    | cons c l ih =>
      obtain ⟨hc, hl⟩ := not_or.1 (mt List.mem_cons.2 hl)
      simpa [blockFrom?, Ne.symm hc] using ih hl
  cases l with
  | nil => rfl
  | cons c l =>
    obtain ⟨hc, hl⟩ := not_or.1 (mt List.mem_cons.2 hl)
    have here : blockHere? entity (c :: l) = .none := by rw [blockHere?, none]
    rw [blockFrom?, if_pos rfl, here, Option.none_or]
    simpa [Ne.symm hc] using within l hl

theorem afterName?_eq_some {t body : Text} (h : afterName? entity t = some body) :
    ∃ space, (∀ c ∈ space, isGap c = true) ∧ t = entity ++ (space ++ '\x7b' :: body) := by
  rw [afterName?] at h
  split at h
  · exact absurd h (by simp)
  · next r hr =>
    split at h
    · next rest hrest =>
      obtain rfl := Option.some.inj h
      refine ⟨r.takeWhile isGap, fun c hc => List.mem_takeWhile_imp hc, ?_⟩
      rw [← List.isPrefixOf?_eq_some_iff_append_eq.1 hr, ← hrest, List.takeWhile_append_dropWhile]
    · exact absurd h (by simp)

theorem afterGap?_eq_some {t body : Text} (h : afterGap? entity t = some body) :
    ∃ gap space, gap ≠ [] ∧ (∀ c ∈ gap, isGap c = true) ∧ (∀ c ∈ space, isGap c = true) ∧
      t = gap ++ (entity ++ (space ++ '\x7b' :: body)) := by
  induction t with
  | nil => exact absurd h (by simp [afterGap?])
  | cons c r ih =>
    rw [afterGap?] at h
    split at h
    · next hc =>
      rcases Option.or_eq_some_iff.1 h with h | ⟨-, h⟩
      · obtain ⟨gap, space, -, hgap, hspace, rfl⟩ := ih h
        exact ⟨c :: gap, space, List.cons_ne_nil c gap, List.forall_mem_cons.2 ⟨hc, hgap⟩, hspace, rfl⟩
      · obtain ⟨space, hspace, rfl⟩ := afterName?_eq_some h
        exact ⟨[c], space, List.cons_ne_nil c [], by simpa using hc, hspace, rfl⟩
    · exact absurd h (by simp)

theorem afterHeader?_eq_some {t body : Text} (h : afterHeader? entity t = some body) :
    ∃ indent gap space, gap ≠ [] ∧ (∀ c ∈ indent ++ (gap ++ space), isGap c = true) ∧
      t = indent ++ ("model".toList ++ (gap ++ (entity ++ (space ++ '\x7b' :: body)))) := by
  rw [afterHeader?] at h
  split at h
  · exact absurd h (by simp)
  · next r hr =>
    obtain ⟨gap, space, hne, hgap, hspace, rfl⟩ := afterGap?_eq_some h
    refine ⟨t.takeWhile isGap, gap, space, hne, ?_, ?_⟩
    · simp only [List.mem_append]
      rintro c (hc | hc | hc)
      · exact List.mem_takeWhile_imp hc
      · exact hgap c hc
      · exact hspace c hc
    · rw [List.isPrefixOf?_eq_some_iff_append_eq.1 hr, List.takeWhile_append_dropWhile]

theorem afterHeader?_header {indent gap space : Text} (starts : ∃ c r, entity = c :: r ∧ isGap c = false)
    (hindent : ∀ c ∈ indent, isGap c = true) (hgap : ∀ c ∈ gap, isGap c = true) (hne : gap ≠ [])
    (hspace : ∀ c ∈ space, isGap c = true) (body : Text) :
    afterHeader? entity (indent ++ ("model".toList ++ (gap ++ (entity ++ (space ++ '\x7b' :: body))))) = some body := by
  have named : afterName? entity (entity ++ (space ++ '\x7b' :: body)) = some body := by
    rw [afterName?, isPrefixOf?_append]
    simp only [List.dropWhile_append_of_pos hspace]
    rfl
  have gapped : afterGap? entity (gap ++ (entity ++ (space ++ '\x7b' :: body))) = some body := by
    induction gap with
    | nil => exact absurd rfl hne
    | cons d gap ih =>
      have hd := hgap d List.mem_cons_self
      rw [List.cons_append, afterGap?, if_pos hd]
      by_cases hnil : gap = []
      · have last : afterGap? entity (entity ++ (space ++ '\x7b' :: body)) = none := by
          obtain ⟨c, r, hname, hc⟩ := starts
          rw [hname, List.cons_append, afterGap?, if_neg (by simp [hc])]
        rw [hnil, List.nil_append, last, Option.none_or, named]
      · rw [ih (fun x hx => hgap x (List.mem_cons_of_mem d hx)) hnil, Option.some_or]
  have keyword (t : Text) : ("model".toList ++ t).dropWhile isGap = "model".toList ++ t := rfl
  rw [afterHeader?, List.dropWhile_append_of_pos hindent, keyword, isPrefixOf?_append]
  exact gapped

/-- A word in a header line: one line, with no gap in it. -/
structure IsWord (w : Text) : Prop where
  ne_nil : w ≠ []
  noGap : ∀ c ∈ w, isGap c = false
  oneLine : '\n' ∉ w

theorem IsWord.starts {w : Text} (h : IsWord w) : ∃ c r, w = c :: r ∧ isGap c = false := by
  obtain ⟨c, r, rfl⟩ := List.exists_cons_of_ne_nil h.ne_nil
  exact ⟨c, r, rfl, h.noGap c List.mem_cons_self⟩

theorem IsWord.dropWhile_gap {w gap : Text} (h : IsWord w) (hgap : ∀ c ∈ gap, isGap c = true) (t : Text) :
    (gap ++ (w ++ t)).dropWhile isGap = w ++ t := by
  obtain ⟨c, r, rfl, hc⟩ := h.starts
  rw [List.dropWhile_append_of_pos hgap, List.cons_append, List.dropWhile_cons_of_neg (by simp [hc])]

theorem IsWord.takeWhile_append_gap {w gap : Text} (h : IsWord w) (hgap : ∀ c ∈ gap, isGap c = true) (hne : gap ≠ [])
    (t : Text) : (w ++ (gap ++ t)).takeWhile (fun c => !isGap c) = w := by
  obtain ⟨d, gap, rfl⟩ := List.exists_cons_of_ne_nil hne
  rw [List.takeWhile_append_of_pos fun c hc => by simp [h.noGap c hc], List.cons_append,
    List.takeWhile_cons_of_neg (by simp [hgap d List.mem_cons_self]), List.append_nil]

theorem IsWord.unique {w w' a a' gap gap' t t' : Text} (h : IsWord w) (h' : IsWord w')
    (ha : ∀ c ∈ a, isGap c = true) (ha' : ∀ c ∈ a', isGap c = true) (hgap : ∀ c ∈ gap, isGap c = true)
    (hgap' : ∀ c ∈ gap', isGap c = true) (hne : gap ≠ []) (hne' : gap' ≠ [])
    (whole : a ++ (w ++ (gap ++ t)) = a' ++ (w' ++ (gap' ++ t'))) : w = w' ∧ gap ++ t = gap' ++ t' := by
  have started := congrArg (List.dropWhile isGap) whole
  rw [h.dropWhile_gap ha, h'.dropWhile_gap ha'] at started
  have same := congrArg (List.takeWhile fun c => !isGap c) started
  rw [h.takeWhile_append_gap hgap hne, h'.takeWhile_append_gap hgap' hne'] at same
  subst same
  exact ⟨rfl, List.append_cancel_left started⟩

/-- How a header is spelled: a keyword and a name with gaps around them, and the opening brace, which is no part of the
name. -/
structure Header where
  indent : Text
  keyword : Text
  gap : Text
  name : Text
  space : Text
  gaps : ∀ c ∈ indent ++ (gap ++ space), isGap c = true
  gap_ne_nil : gap ≠ []
  keyword_word : IsWord keyword
  name_word : IsWord name
  noBrace : '\x7b' ∉ name

namespace Header

def line (h : Header) : Text := h.indent ++ (h.keyword ++ (h.gap ++ (h.name ++ (h.space ++ ['\x7b']))))

def Declares (h : Header) (entity : Text) : Prop := h.keyword = "model".toList ∧ h.name = entity

instance (h : Header) (entity : Text) : Decidable (h.Declares entity) := inferInstanceAs (Decidable (_ ∧ _))

def isNamed (c : Char) : Bool := !isGap c && c ≠ '\x7b'

variable (h : Header)

theorem isGap_of_mem_indent : ∀ c ∈ h.indent, isGap c = true := fun c hc => h.gaps c (by simp [hc])

theorem isGap_of_mem_gap : ∀ c ∈ h.gap, isGap c = true := fun c hc => h.gaps c (by simp [hc])

theorem isGap_of_mem_space : ∀ c ∈ h.space, isGap c = true := fun c hc => h.gaps c (by simp [hc])

theorem line_append (rest : Text) :
    h.line ++ rest = h.indent ++ (h.keyword ++ (h.gap ++ (h.name ++ (h.space ++ '\x7b' :: rest)))) := by
  simp [line]

theorem oneLine : '\n' ∉ h.line := by
  have feed : ∀ t : Text, (∀ c ∈ t, isGap c = true) → '\n' ∉ t := fun t ht hm => absurd (ht _ hm) (by decide)
  simp [line, feed _ h.isGap_of_mem_indent, feed _ h.isGap_of_mem_gap, feed _ h.isGap_of_mem_space,
    h.keyword_word.oneLine, h.name_word.oneLine]

theorem afterHeader?_line_of_declares (declares : h.Declares entity) (rest : Text) :
    afterHeader? entity (h.line ++ rest) = some rest := by
  obtain ⟨hkeyword, rfl⟩ := declares
  rw [line_append, hkeyword]
  exact afterHeader?_header h.name_word.starts h.isGap_of_mem_indent h.isGap_of_mem_gap h.gap_ne_nil
    h.isGap_of_mem_space rest

theorem declares_of_afterHeader? (noGap : ∀ c ∈ entity, isGap c = false) (brace : '\x7b' ∉ entity) {rest body : Text}
    (found : afterHeader? entity (h.line ++ rest) = some body) : h.Declares entity := by
  obtain ⟨indent, gap, space, hne, gaps, whole⟩ := afterHeader?_eq_some found
  have hindent : ∀ c ∈ indent, isGap c = true := fun c hc => gaps c (by simp [hc])
  have hgap : ∀ c ∈ gap, isGap c = true := fun c hc => gaps c (by simp [hc])
  have hspace : ∀ c ∈ space, isGap c = true := fun c hc => gaps c (by simp [hc])
  have model : IsWord "model".toList := ⟨by decide, by decide, by decide⟩
  rw [line_append] at whole
  obtain ⟨hkeyword, whole⟩ := h.keyword_word.unique model h.isGap_of_mem_indent hindent h.isGap_of_mem_gap hgap
    h.gap_ne_nil hne whole
  refine ⟨hkeyword, ?_⟩
  have names := congrArg (List.dropWhile isGap) whole
  rw [h.name_word.dropWhile_gap h.isGap_of_mem_gap, List.dropWhile_append_of_pos hgap] at names
  have ends (s t : Text) (hs : ∀ c ∈ s, isGap c = true) : (s ++ '\x7b' :: t).takeWhile isNamed = [] := by
    cases s with
    | nil => rfl
    | cons c s => simp [isNamed, hs c List.mem_cons_self]
  have named {w : Text} (hw : ∀ c ∈ w, isGap c = false) (hbrace : '\x7b' ∉ w) : ∀ c ∈ w, isNamed c = true := by
    intro c hc
    have noBrace : c ≠ '\x7b' := fun he => hbrace (he ▸ hc)
    simp [isNamed, hw c hc, noBrace]
  have own : (h.name ++ (h.space ++ '\x7b' :: rest)).takeWhile isNamed = h.name := by
    rw [List.takeWhile_append_of_pos (named h.name_word.noGap h.noBrace), ends _ rest h.isGap_of_mem_space,
      List.append_nil]
  cases entity with
  | nil =>
    obtain ⟨c, r, hname, -⟩ := h.name_word.starts
    have braced : (space ++ '\x7b' :: body).dropWhile isGap = '\x7b' :: body := by
      rw [List.dropWhile_append_of_pos hspace]
      rfl
    rw [List.nil_append, braced, hname] at names
    obtain ⟨rfl, -⟩ := List.cons.inj names
    exact absurd (hname ▸ List.mem_cons_self) h.noBrace
  | cons c r =>
    rw [List.cons_append, List.dropWhile_cons_of_neg (by simp [noGap c List.mem_cons_self]), ← List.cons_append]
      at names
    rw [← own, names, List.takeWhile_append_of_pos (named noGap brace), ends _ body hspace, List.append_nil]

end Header

end EntityScaffold.Schema
