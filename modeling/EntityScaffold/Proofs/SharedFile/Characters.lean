import EntityScaffold.Proofs.SharedFile.Settled

/- Where the characters of a file come from when entities are registered: the file, the snippets, or the line ends. -/

namespace EntityScaffold.SharedFile

open Naming (Identifier AddressPrefix)

variable {i : Insertion} {t : Target} {p : AddressPrefix} {e : Identifier} {content snippet : Text} {c : Char}

theorem mem_of_mem_indented {indent : Text} (h : c ∈ indented indent snippet) :
    c ∈ indent ∨ c ∈ snippet ∨ c = '\n' := by
  obtain ⟨l, hl, hc⟩ := List.mem_flatMap.1 h
  split at hc
  · exact Or.inr (Or.inr (List.mem_singleton.1 hc))
  · simp only [List.mem_append, List.mem_singleton] at hc
    rcases hc with (hc | hc) | hc
    · exact Or.inl hc
    · have joined : c ∈ ['\n'].intercalate (Text.splitAt '\n' (Text.trimEnd (· = '\n') snippet)) := by
        obtain ⟨us, vs, hsplit⟩ := List.append_of_mem hl
        rw [hsplit, Text.intercalate_eq_between, Text.between]
        simp [hc]
      rw [Text.intercalate_splitAt] at joined
      have := (List.dropWhile_suffix _).subset (List.mem_reverse.1 joined)
      exact Or.inr (Or.inl (List.mem_reverse.1 this))
    · exact Or.inr (Or.inr hc)

theorem append_of_section? {name : Text} {s : Section} (h : SharedFile.section? content name = some s) :
    s.before ++ s.body ++ s.after = content := by
  simp only [SharedFile.section?, Option.bind_eq_bind, Option.bind_eq_some_iff, Prod.exists] at h
  obtain ⟨before, opening, hopen, marker, rest, hmarker, inner, closing, hclose, he⟩ := h
  have whole := Text.append_of_cut? hopen
  have line := Text.append_of_cut? hmarker
  have body := Text.append_of_cut? hclose
  have parted : (lastLineSplit inner).1 ++ ((lastLineSplit inner).2 ++ closing) = inner ++ closing := by
    rw [← List.append_assoc, append_lastLineSplit]
  obtain ⟨r, rfl⟩ := List.isPrefixOf_iff_prefix.1 (Text.isPrefixOf_of_cut? hmarker)
  obtain rfl := Option.some.inj he
  simp only [List.singleton_append, List.drop_succ_cons, List.drop_zero] at body
  rw [← whole, ← line, ← body]
  simp [parted]

theorem Insertion.append_of_section? {s : Section} (h : i.section? content = some s) :
    s.before ++ s.body ++ s.after = content := by
  unfold Insertion.section? at h
  split at h
  · exact absurd h (by simp)
  · split at h
    · exact absurd h (by simp)
    · exact SharedFile.append_of_section? h

theorem mem_of_mem_append {s : Section} (h : c ∈ s.append snippet) :
    c ∈ s.before ++ s.body ++ s.after ∨ c ∈ snippet ∨ c = '\n' := by
  simp only [Section.append, List.mem_append] at h ⊢
  rcases h with ((h | h) | h) | h
  · exact Or.inl (Or.inl (Or.inl h))
  · exact Or.inl (Or.inl (Or.inr h))
  · rcases mem_of_mem_indented h with hi | hrest
    · exact Or.inl (Or.inr ((List.takeWhile_prefix _).subset hi))
    · exact Or.inr hrest
  · exact Or.inl (Or.inr h)

theorem mem_of_insertBeforeAnchor? {anchor new : Text} (made : insertBeforeAnchor? content anchor snippet = some new)
    (h : c ∈ new) : c ∈ content ∨ c ∈ snippet ∨ c = '\n' := by
  simp only [insertBeforeAnchor?, Option.bind_eq_bind, Option.bind_eq_some_iff, Prod.exists] at made
  obtain ⟨before, rest, hcut, he⟩ := made
  obtain rfl := Option.some.inj he
  have whole := Text.append_of_cut? hcut
  have start : (lastLineSplit before).2 ⊆ content := by
    intro d hd
    have := List.mem_append_right (lastLineSplit before).1 hd
    rw [append_lastLineSplit] at this
    exact whole ▸ List.mem_append_left rest this
  have indent : ∀ d, d ∈ (if (Text.strip (lastLineSplit before).2).isEmpty then (lastLineSplit before).2 else []) →
      d ∈ content := by
    intro d hd
    split at hd
    · exact start hd
    · exact absurd hd List.not_mem_nil
  simp only [List.mem_append] at h
  rcases h with ((h | h) | h) | h
  · exact Or.inl (whole ▸ List.mem_append_left rest h)
  · rcases mem_of_mem_indented ((List.dropWhile_suffix _).subset h) with hi | hrest
    · exact Or.inl (indent c hi)
    · exact Or.inr hrest
  · exact Or.inl (indent c h)
  · exact Or.inl (whole ▸ List.mem_append_right before h)

theorem mem_of_splice {context : Template.Context} {new : Text} (made : splice context content i = .inserted new)
    (h : c ∈ new) : c ∈ content ∨ c ∈ Template.substitute i.snippet context ∨ c = '\n' := by
  unfold splice at made
  cases hsection : i.section? content with
  | some s =>
    simp only [hsection] at made
    split at made
    · exact absurd made (by simp)
    · obtain rfl := Splice.inserted.inj made
      rw [← Insertion.append_of_section? hsection]
      exact mem_of_mem_append h
  | none =>
    simp only [hsection] at made
    split at made
    · exact absurd made (by simp)
    · split at made
      · next new' hnew =>
        obtain rfl := Splice.inserted.inj made
        exact mem_of_insertBeforeAnchor? hnew h
      · exact absurd made (by simp)

theorem Target.IsStable.not_mem_register (h : t.IsStable p) (hr : '\r' ∉ content) :
    '\r' ∉ (t.register (entityContext e.name p.text) content).left content := by
  have step : ∀ s : Spliced, '\r' ∉ s.content → ∀ i ∈ t.insertions,
      '\r' ∉ (s.next (entityContext e.name p.text) i).content := by
    intro s hs i hi
    unfold Spliced.next
    cases made : splice (entityContext e.name p.text) s.content i with
    | alreadyThere => exact hs
    | anchorMissing anchor => exact hs
    | inserted new =>
      intro hm
      rcases mem_of_splice made hm with hm | hm | hm
      · exact hs hm
      · have renders := h.renders e i hi
        rw [renders.snippet_eq] at hm
        obtain ⟨l, hl, hm⟩ := List.mem_flatMap.1 hm
        rcases List.mem_append.1 hm with hm | hm
        · exact absurd ((renders.neat l hl).oneLine '\r' hm) (by decide)
        · exact absurd (List.mem_singleton.1 hm) (by decide)
      · exact absurd hm (by decide)
  unfold Target.register
  split
  · exact hr
  · exact List.foldlRecOn (motive := fun s : Spliced => '\r' ∉ s.content) t.insertions _ hr step

end EntityScaffold.SharedFile
