import EntityScaffold.Data.Reader

/-
Readers that are read back from what is written for their values. Each reader gives valid values only, and each valid value
again from its own datum; such readers are put together from those of their parts.
-/

namespace EntityScaffold.Data

namespace Checked

variable {α β : Type}

theorem map_eq_good {f : α → β} {a : Checked α} {b : β} : a.map f = .good b ↔ ∃ x, a = .good x ∧ f x = b := by
  cases a <;> simp [map]

theorem functor_map_eq_good {f : α → β} {a : Checked α} {b : β} :
    f <$> a = .good b ↔ ∃ x, a = .good x ∧ f x = b := map_eq_good

theorem seq_eq_good {f : Checked (α → β)} {a : Checked α} {b : β} :
    f <*> a = .good b ↔ ∃ g x, f = .good g ∧ a = .good x ∧ g x = b := by
  change both f a = .good b ↔ _
  cases f <;> cases a <;> simp [both]

@[simp] theorem within_eq_good {s : Step} {a : Checked α} {x : α} : a.within s = .good x ↔ a = .good x := by
  cases a <;> simp [within]

theorem thenCheck_eq_good {a : Checked α} {f : α → Checked β} {b : β} :
    a.thenCheck f = .good b ↔ ∃ x, a = .good x ∧ f x = .good b := by
  cases a <;> simp [thenCheck]

@[simp] theorem refuse_ne_good {c : Cause} {x : α} : (refuse c : Checked α) ≠ .good x := by simp [refuse]

end Checked

section Entries

theorem Datum.get?_of_mem {es : List (Text × Datum)} {k : Text} {d : Datum} (distinct : (es.map Prod.fst).Nodup)
    (h : (k, d) ∈ es) : Datum.get? k (es.map fun e => (.text e.1, e.2)) = some d := by
  induction es with
  | nil => simp at h
  | cons e es ih =>
    obtain ⟨new, distinct⟩ := List.nodup_cons.1 distinct
    rcases List.mem_cons.1 h with rfl | h
    · simp [Datum.get?]
    · have other : e.1 ≠ k := fun same => new (same ▸ List.mem_map_of_mem h)
      simpa [Datum.get?, other] using ih distinct h

end Entries

namespace Reader

variable {α β : Type} {reader : Reader α} {write : α → Datum} {IsValid : α → Prop} {es : Entries} {name : Text} {v : α}

/-- A reader reads valid values only, and each valid value from what is written for it. -/
structure Recovers (reader : Reader α) (write : α → Datum) (IsValid : α → Prop) : Prop where
  valid : ∀ {d v}, reader d = .good v → IsValid v
  recovered : ∀ {v}, IsValid v → reader (write v) = .good v

theorem recovers_text : Recovers text .text fun _ => True := ⟨fun _ => trivial, fun _ => rfl⟩

theorem recovers_nonEmptyText : Recovers nonEmptyText .text (· ≠ []) where
  valid h := by
    obtain ⟨t, -, h⟩ := Checked.thenCheck_eq_good.1 h
    split at h
    · exact absurd h Checked.refuse_ne_good
    · next shown =>
      obtain rfl := Checked.good.inj h
      simpa using shown
  recovered h := Checked.thenCheck_eq_good.2 ⟨_, rfl, if_neg (by simpa using h)⟩

theorem recovers_integerFrom (least : Int) : Recovers (integerFrom least) .int (least ≤ ·) where
  valid h := by
    obtain ⟨i, -, h⟩ := Checked.thenCheck_eq_good.1 h
    split at h
    · exact absurd h Checked.refuse_ne_good
    · next high =>
      obtain rfl := Checked.good.inj h
      exact Int.not_lt.1 high
  recovered h := Checked.thenCheck_eq_good.2 ⟨_, rfl, if_neg (Int.not_lt.2 h)⟩

theorem Recovers.optional (h : Recovers reader write IsValid) {whole : Option α → Datum} (empty : whole none = .null)
    (filled : ∀ v, whole (some v) = write v) (given : ∀ v, write v ≠ .null) :
    Recovers (optional reader) whole fun o => ∀ v ∈ o, IsValid v where
  valid {d o} read := by
    rintro v rfl
    unfold Reader.optional at read
    split at read
    · cases read
    · obtain ⟨x, read, some⟩ := Checked.map_eq_good.1 read
      exact Option.some.inj some ▸ h.valid read
  recovered {o} valid := by
    cases o with
    | none =>
      rw [empty]
      rfl
    | some v =>
      have read : reader (write v) = .good v := h.recovered (valid v rfl)
      rw [filled]
      unfold Reader.optional
      split
      · next null => exact absurd null (given v)
      · exact Checked.map_eq_good.2 ⟨v, read, rfl⟩

section Sequences

theorem mem_goods {cs : List (Checked α)} : v ∈ goods cs ↔ .good v ∈ cs := by
  simp only [goods, List.mem_filterMap]
  constructor
  · rintro ⟨c, h, same⟩
    cases c with
    | good a => exact Option.some.inj same ▸ h
    | bad => cases same
  · exact fun h => ⟨_, h, rfl⟩

theorem eq_goods_of_collect {cs : List (Checked α)} {vs : List α} (h : collect cs = .good vs) : vs = goods cs := by
  unfold collect at h
  split at h
  · exact (Checked.good.inj h).symm
  · cases h

theorem collect_goods (vs : List α) : collect (vs.map .good) = .good vs := by
  have issues : (vs.map Checked.good).flatMap Checked.issues = [] := by simp [List.flatMap_map, Checked.issues]
  have all : goods (vs.map Checked.good) = vs := by
    rw [goods, List.filterMap_map]
    exact List.filterMap_some
  rw [collect, issues, all]

theorem exists_read_of_mem_goods {ds : List Datum} (h : v ∈ goods (items reader ds)) : ∃ d, reader d = .good v := by
  obtain ⟨p, -, read⟩ := List.mem_map.1 (mem_goods.1 h)
  exact ⟨p.1, Checked.within_eq_good.1 read⟩

theorem Recovers.items (h : Recovers reader write IsValid) {vs : List α} (valid : ∀ v ∈ vs, IsValid v) :
    items reader (vs.map write) = vs.map .good := by
  have read (p : α × Nat) (hp : p ∈ vs.zipIdx) :
      (reader (write p.1)).within (.index p.2) = .good p.1 :=
    Checked.within_eq_good.2 (h.recovered (valid p.1 (List.fst_mem_of_mem_zipIdx hp)))
  rw [Reader.items, List.zipIdx_map, List.map_map]
  calc vs.zipIdx.map ((fun p => (reader p.1).within (.index p.2)) ∘ Prod.map write id)
      = vs.zipIdx.map (Checked.good ∘ Prod.fst) := List.map_congr_left read
    _ = vs.map .good := by rw [← List.map_map, List.zipIdx_map_fst]

theorem Recovers.sequence {whole : Reader (List α)} (h : Recovers reader write IsValid)
    (reads : ∀ ds, whole (.list ds) = collect (Reader.items reader ds))
    (only : ∀ d vs, whole d = .good vs → ∃ ds, collect (Reader.items reader ds) = .good vs) :
    Recovers whole (fun vs => .list (vs.map write)) fun vs => ∀ v ∈ vs, IsValid v where
  valid {d vs} read v hv := by
    obtain ⟨ds, read⟩ := only d vs read
    obtain ⟨d, read⟩ := exists_read_of_mem_goods (eq_goods_of_collect read ▸ hv)
    exact h.valid read
  recovered {vs} valid := by rw [reads, h.items valid, collect_goods]

theorem Recovers.list (h : Recovers reader write IsValid) :
    Recovers (list reader) (fun vs => .list (vs.map write)) fun vs => ∀ v ∈ vs, IsValid v := by
  refine h.sequence (fun _ => rfl) fun d vs read => ?_
  unfold Reader.list at read
  split at read
  · exact ⟨_, read⟩
  · exact absurd read Checked.refuse_ne_good

theorem Recovers.tuple (h : Recovers reader write IsValid) :
    Recovers (tuple reader) (fun vs => .list (vs.map write)) fun vs => ∀ v ∈ vs, IsValid v := by
  refine h.sequence (fun _ => rfl) fun d vs read => ?_
  unfold Reader.tuple at read
  split at read
  · exact ⟨_, read⟩
  · exact absurd read Checked.refuse_ne_good

theorem Recovers.tupleFrom (h : Recovers reader write IsValid) (least : Nat) :
    Recovers (tupleFrom least reader) (fun vs => .list (vs.map write)) fun vs =>
      least ≤ vs.length ∧ ∀ v ∈ vs, IsValid v where
  valid {d vs} read := by
    unfold Reader.tupleFrom at read
    split at read
    · exact absurd read Checked.refuse_ne_good
    · dsimp only at read
      split at read
      · cases read
      · next enough =>
        obtain rfl := eq_goods_of_collect read
        refine ⟨Nat.not_lt.1 enough, fun v hv => ?_⟩
        obtain ⟨d, read⟩ := exists_read_of_mem_goods hv
        exact h.valid read
  recovered {vs} valid := by
    obtain ⟨enough, valid⟩ := valid
    have read : Reader.items reader (vs.map write) = vs.map .good := h.items valid
    have all : goods (vs.map Checked.good) = vs := (eq_goods_of_collect (collect_goods vs)).symm
    change (if (goods (Reader.items reader (vs.map write))).length < least then _ else _) = _
    rw [read, all, if_neg (Nat.not_lt.2 enough), collect_goods]

end Sequences

section Records

variable {default : α}

theorem Recovers.valid_of_withDefault (h : Recovers reader write IsValid) (ready : IsValid default)
    (read : withDefault name default reader es = .good v) : IsValid v := by
  unfold withDefault at read
  split at read
  · exact h.valid (Checked.within_eq_good.1 read)
  · exact Checked.good.inj read ▸ ready

theorem Recovers.valid_of_required (h : Recovers reader write IsValid) (read : required name reader es = .good v) :
    IsValid v := by
  unfold required at read
  split at read
  · exact h.valid (Checked.within_eq_good.1 read)
  · exact absurd (Checked.within_eq_good.1 read) Checked.refuse_ne_good

theorem Recovers.withDefault (h : Recovers reader write IsValid) (default : α) (valid : IsValid v)
    (entry : Datum.get? name es = some (write v)) : withDefault name default reader es = .good v := by
  rw [Reader.withDefault, entry]
  exact Checked.within_eq_good.2 (h.recovered valid)

theorem Recovers.required (h : Recovers reader write IsValid) (valid : IsValid v)
    (entry : Datum.get? name es = some (write v)) : required name reader es = .good v := by
  rw [Reader.required, entry]
  exact Checked.within_eq_good.2 (h.recovered valid)

theorem record_eq_good {known : List Text} {fields : Entries → Checked α} {d : Datum} :
    record name known fields d = .good v ↔ ∃ es, d = .map es ∧ fields es = .good v ∧ strangers known es = [] := by
  unfold record
  split
  · next es =>
    split
    · next familiar => simp [familiar]
    · next strange => simpa using fun _ => strange
  · next other => simpa using fun es h _ => absurd h (other es)

theorem strangers_ofEntries {known : List Text} {es : List (Text × Datum)} (h : ∀ e ∈ es, e.1 ∈ known) :
    strangers known (es.map fun e => (.text e.1, e.2)) = [] := by
  rw [strangers, List.filterMap_map, List.filterMap_eq_nil_iff]
  exact fun e he => if_pos (by simpa using h e he)

theorem record_ofEntries {known : List Text} {fields : Entries → Checked α} {es : List (Text × Datum)}
    (names : es.map Prod.fst = known) (distinct : known.Nodup)
    (read : (∀ {k d}, (k, d) ∈ es → Datum.get? k (es.map fun e => (.text e.1, e.2)) = some d) →
      fields (es.map fun e => (.text e.1, e.2)) = .good v) :
    record name known fields (.ofEntries es) = .good v := by
  refine record_eq_good.2 ⟨_, rfl, read fun h => Datum.get?_of_mem (names ▸ distinct) h, strangers_ofEntries ?_⟩
  exact fun e he => names ▸ List.mem_map_of_mem he

end Records

end Reader

end EntityScaffold.Data
