import EntityScaffold.Proofs.Job.Ensures

/-
Jobs that ask nobody for a name. The input plays no part in them, nor does what was said before: in all worlds with one
tree such a job ends alike, leaves the same tree and says the same.
-/

namespace EntityScaffold

variable {α β : Type}

/-- A request that no person answers. -/
def Request.AsksNobody : Request → Prop
  | .name _ => False
  | _ => True

theorem Request.Alike.asksNobody {t u : FileTree} {r : Request} (h : r.Alike t u) : r.AsksNobody := by
  cases r with
  | name label => exact h.elim
  | _ => trivial

namespace Job

variable {t u : FileTree} {j : Job α} {k : α → Job β} {p : Path} {kind other : Request → Prop}

theorem Asks.mono (h : j.Asks kind) (weaken : ∀ r, kind r → other r) : j.Asks other := by
  induction j with
  | done a => trivial
  | failed f => trivial
  | ask r next ih => exact ⟨weaken r h.1, fun answer => ih answer (h.2 answer)⟩

/-- Every request that a job can come to make is answered without a person. -/
abbrev Unattended (j : Job α) : Prop := j.Asks Request.AsksNobody

theorem Asks.unattended (h : j.Asks (Request.Alike t u)) : j.Unattended := h.mono fun _ => Request.Alike.asksNobody

theorem unattended_look (p : Path) : (look p).Unattended := ⟨trivial, asks_granted⟩

theorem unattended_read (p : Path) : (read p).Unattended := ⟨trivial, asks_granted⟩

theorem unattended_makeFolder (p : Path) : (makeFolder p).Unattended := ⟨trivial, asks_granted⟩

theorem unattended_write (p : Path) (content : Octets) : (write p content).Unattended := ⟨trivial, asks_granted⟩

theorem unattended_temporary (p : Path) : (temporary p).Unattended := ⟨trivial, asks_granted⟩

theorem unattended_fill (place : Location) (content : Octets) : (fill place content).Unattended :=
  ⟨trivial, fun _ => trivial⟩

theorem unattended_move (place : Location) (p : Path) : (move place p).Unattended := ⟨trivial, asks_granted⟩

theorem unattended_discard (place : Location) : (discard place).Unattended := ⟨trivial, fun _ => trivial⟩

theorem unattended_time : time.Unattended := ⟨trivial, fun _ => trivial⟩

theorem unattended_note (e : Log.Entry) : (note e).Unattended := ⟨trivial, fun _ => trivial⟩

theorem unattended_notes (es : List Log.Entry) : (notes es).Unattended := by
  induction es with
  | nil => trivial
  | cons e es ih => exact ⟨trivial, fun _ => ih⟩

theorem Asks.timed (label : Text) (h : j.Unattended) : (Job.timed label j).Unattended := by
  unfold Job.timed
  refine unattended_time.bind fun _ => h.attempt.bind fun r => unattended_time.bind fun _ => ?_
  exact (unattended_note _).bind fun _ => asks_ofExcept r

/-- A request that no person answers gets the same answer in two worlds with one tree, changes both trees alike and adds
the same to what was said. -/
theorem answer_alike {r : Request} (h : r.AsksNobody) {w w' : World} (same : w.tree = w'.tree) :
    (w.answer r).1 = (w'.answer r).1 ∧ (w.answer r).2.tree = (w'.answer r).2.tree ∧
      ∃ more, (w.answer r).2.said = w.said ++ more ∧ (w'.answer r).2.said = w'.said ++ more := by
  have change (result : Except FileTree.Refusal FileTree) :
      (w.change result).1 = (w'.change result).1 ∧ (w.change result).2.tree = (w'.change result).2.tree ∧
        ∃ more, (w.change result).2.said = w.said ++ more ∧ (w'.change result).2.said = w'.said ++ more := by
    cases result with
    | ok v => exact ⟨rfl, rfl, [], by simp [World.change], by simp [World.change]⟩
    | error refusal => exact ⟨rfl, same, [], by simp [World.change], by simp [World.change]⟩
  cases r with
  | look p => exact ⟨congrArg (·.look p) same, same, [], by simp [World.answer], by simp [World.answer]⟩
  | read p => exact ⟨congrArg (·.read p) same, same, [], by simp [World.answer], by simp [World.answer]⟩
  | makeFolder p =>
    have := change (w.tree.makeFolder p)
    simpa only [World.answer, same] using this
  | write p content =>
    have := change (w.tree.write p content)
    simpa only [World.answer, same] using this
  | temporary p =>
    simp only [World.answer, same]
    cases w'.tree.makeTemporary p with
    | ok made => exact ⟨rfl, rfl, [], by simp, by simp⟩
    | error refusal => exact ⟨rfl, same, [], by simp, by simp⟩
  | fill place content => exact ⟨rfl, congrArg (·.fill place content) same, [], by simp [World.answer], by simp [World.answer]⟩
  | move place p =>
    have := change (w.tree.move place p)
    simpa only [World.answer, same] using this
  | discard place => exact ⟨rfl, congrArg (·.discard place) same, [], by simp [World.answer], by simp [World.answer]⟩
  | time => exact ⟨rfl, same, [], by simp [World.answer], by simp [World.answer]⟩
  | note e => exact ⟨rfl, same, [.entry e], rfl, rfl⟩
  | print stream s => exact ⟨rfl, same, [.shown stream s], rfl, rfl⟩
  | name label => exact h.elim

theorem Asks.run_alike (h : j.Unattended) {w w' : World} (same : w.tree = w'.tree) :
    (World.run j w).1 = (World.run j w').1 ∧ (World.run j w).2.tree = (World.run j w').2.tree ∧
      ∃ more, (World.run j w).2.said = w.said ++ more ∧ (World.run j w').2.said = w'.said ++ more := by
  induction j generalizing w w' with
  | done a => exact ⟨rfl, same, [], by simp, by simp⟩
  | failed f => exact ⟨rfl, same, [], by simp, by simp⟩
  | ask r next ih =>
    obtain ⟨answer, tree, said, hsaid, hsaid'⟩ := answer_alike h.1 same
    rw [World.run_ask, World.run_ask, ← answer]
    obtain ⟨result, last, more, hmore, hmore'⟩ := ih _ (h.2 _) tree
    refine ⟨result, last, said ++ more, ?_, ?_⟩
    · rw [hmore, hsaid, List.append_assoc]
    · rw [hmore', hsaid', List.append_assoc]

theorem Ends.resultIn_eq {r : Except Failure α} (ends : j.Ends t r u) (h : j.Unattended) : j.resultIn t = r := by
  obtain ⟨w, rfl, rfl, -⟩ := ends
  have start : ({ tree := w.tree } : World).tree = w.tree := rfl
  exact (h.run_alike start).1

end Job

end EntityScaffold
