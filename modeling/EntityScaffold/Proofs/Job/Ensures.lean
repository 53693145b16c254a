import EntityScaffold.Job.World

/-
What a job ensures in a tree: how it ends there, and what tree it leaves. Nothing else of a world plays a part. A job that
only looks and reads leaves the tree, and ends alike in all trees that show it the same.
-/

namespace EntityScaffold

variable {α β : Type}

/-- Requests that only look, and that two trees answer alike. -/
def Request.Alike (t u : FileTree) : Request → Prop
  | .look p => t.look p = u.look p
  | .read p => t.read p = u.read p
  | .time => True
  | .note _ => True
  | _ => False

namespace Job

variable {t u : FileTree} {j : Job α} {k : α → Job β} {p : Path} {kind : Request → Prop}
variable {post post' : Except Failure α → FileTree → Prop} {last : Except Failure β → FileTree → Prop}

/-- In every world with a tree, a job ends with a result and a tree that fulfil a condition. -/
def Ensures (t : FileTree) (j : Job α) (post : Except Failure α → FileTree → Prop) : Prop :=
  ∀ w : World, w.tree = t → post (World.run j w).1 (World.run j w).2.tree

/-- How a job ends that is started in a tree. -/
def resultIn (t : FileTree) (j : Job α) : Except Failure α := (World.run j { tree := t }).1

/-- A way in which a job ends that is started in a tree. -/
def Ends (t : FileTree) (j : Job α) (r : Except Failure α) (u : FileTree) : Prop :=
  ∃ w : World, w.tree = t ∧ (World.run j w).1 = r ∧ (World.run j w).2.tree = u

/-- Every request that a job can come to make is of a kind. -/
def Asks (kind : Request → Prop) : Job α → Prop
  | done _ => True
  | failed _ => True
  | ask r next => kind r ∧ ∀ answer, (next answer).Asks kind

theorem run_eq_ok {γ : Type} {f : α → γ} {c : γ} {w : World} (h : (World.run j w).1.toOption.map f = some c) :
    ∃ a, World.run j w = (.ok a, (World.run j w).2) ∧ f a = c := by
  cases hr : (World.run j w).1 with
  | ok a =>
    rw [hr] at h
    exact ⟨a, Prod.ext hr rfl, by simpa [Except.toOption] using h⟩
  | error failure =>
    rw [hr] at h
    exact absurd h (by simp [Except.toOption])

theorem Ensures.mono (h : j.Ensures t post) (weaken : ∀ r u, post r u → post' r u) : j.Ensures t post' :=
  fun w hw => weaken _ _ (h w hw)

theorem Ensures.and (h : j.Ensures t post) (h' : j.Ensures t post') : j.Ensures t fun r u => post r u ∧ post' r u :=
  fun w hw => ⟨h w hw, h' w hw⟩

theorem Ensures.of_run {w w' : World} {r : Except Failure α} (h : j.Ensures w.tree post)
    (hrun : World.run j w = (r, w')) : post r w'.tree := by
  have := h w rfl
  rwa [hrun] at this

theorem ensures_ends (t : FileTree) (j : Job α) : j.Ensures t (j.Ends t) := fun w hw => ⟨w, hw, rfl, rfl⟩

theorem Ensures.of_ends {r : Except Failure α} (h : j.Ensures t post) (ends : j.Ends t r u) : post r u := by
  obtain ⟨w, hw, rfl, rfl⟩ := ends
  exact h w hw

theorem Ends.bind_ok {b : β} (ends : (j >>= k).Ends t (.ok b) u) :
    ∃ a v, j.Ends t (.ok a) v ∧ (k a).Ends v (.ok b) u := by
  obtain ⟨w, hw, hr, hu⟩ := ends
  change (World.run (j.bind k) w).1 = _ at hr
  change (World.run (j.bind k) w).2.tree = _ at hu
  rw [World.run_bind] at hr hu
  cases hrun : World.run j w with
  | mk r w' =>
    rw [hrun] at hr hu
    cases r with
    | ok a => exact ⟨a, w'.tree, ⟨w, hw, by rw [hrun], by rw [hrun]⟩, w', rfl, hr, hu⟩
    | error f => exact absurd hr (by simp)

theorem Ensures.resultIn (h : j.Ensures t post) : ∃ u, post (j.resultIn t) u := ⟨_, h { tree := t } rfl⟩

theorem ensures_pure {a : α} (h : post (.ok a) t) : (pure a : Job α).Ensures t post := by
  rintro w rfl
  exact h

theorem ensures_failed {f : Failure} (h : post (.error f) t) : (failed f : Job α).Ensures t post := by
  rintro w rfl
  exact h

theorem ensures_ofExcept {r : Except Failure α} (h : post r t) : (ofExcept r).Ensures t post := by
  cases r with
  | ok a => exact ensures_pure h
  | error f => exact ensures_failed h

theorem Ensures.bind (h : j.Ensures t post) (next : ∀ a u, post (.ok a) u → (k a).Ensures u last)
    (stop : ∀ f u, post (.error f) u → last (.error f) u) : (j >>= k).Ensures t last := by
  intro w hw
  change last (World.run (j.bind k) w).1 (World.run (j.bind k) w).2.tree
  have first := h w hw
  rw [World.run_bind]
  generalize World.run j w = end_ at first
  obtain ⟨r, w'⟩ := end_
  cases r with
  | ok a => exact next a w'.tree first w' rfl
  | error f => exact stop f w'.tree first

theorem Ensures.attempt {next : Except Failure α → Job β} (h : j.Ensures t post)
    (go : ∀ r u, post r u → (next r).Ensures u last) : (j.attempt >>= next).Ensures t last := by
  intro w hw
  change last (World.run (j.attempt.bind next) w).1 (World.run (j.attempt.bind next) w).2.tree
  rw [World.run_bind, World.run_attempt]
  exact go _ _ (h w hw) _ rfl

/-- How a request ends that looks: with its answer, or refused. -/
inductive Answered (t : FileTree) (answer : Except FileTree.Refusal α) : Except Failure α → FileTree → Prop
  | granted {a : α} (h : answer = .ok a) : Answered t answer (.ok a) t
  | refused {r : FileTree.Refusal} (h : answer = .error r) : Answered t answer (.error (.refused r)) t

/-- How a request ends that changes the tree: with the new tree, or refused. -/
inductive Changed (t : FileTree) (change : Except FileTree.Refusal FileTree) : Except Failure Unit → FileTree → Prop
  | granted {u : FileTree} (h : change = .ok u) : Changed t change (.ok ()) u
  | refused {r : FileTree.Refusal} (h : change = .error r) : Changed t change (.error (.refused r)) t

theorem ensures_granted (answer : Except FileTree.Refusal α) : (granted answer).Ensures t (Answered t answer) := by
  cases answer with
  | ok a => exact ensures_pure (.granted rfl)
  | error r => exact ensures_failed (.refused rfl)

theorem ensures_look (t : FileTree) (p : Path) : (look p).Ensures t (Answered t (t.look p)) := by
  rintro w rfl
  exact ensures_granted (w.tree.look p) w rfl

theorem ensures_read (t : FileTree) (p : Path) : (read p).Ensures t (Answered t (t.read p)) := by
  rintro w rfl
  exact ensures_granted (w.tree.read p) w rfl

theorem changed (w : World) (change : Except FileTree.Refusal FileTree) :
    Changed w.tree change (World.run (granted (w.change change).1) (w.change change).2).1
      (World.run (granted (w.change change).1) (w.change change).2).2.tree := by
  cases change with
  | ok u => exact .granted rfl
  | error r => exact .refused rfl

theorem ensures_makeFolder (t : FileTree) (p : Path) : (makeFolder p).Ensures t (Changed t (t.makeFolder p)) := by
  rintro w rfl
  exact changed w (w.tree.makeFolder p)

theorem ensures_write (t : FileTree) (p : Path) (content : Octets) :
    (write p content).Ensures t (Changed t (t.write p content)) := by
  rintro w rfl
  exact changed w (w.tree.write p content)

/-- How a request for a temporary file ends: with the place where it stands in the new tree, or refused. -/
inductive TemporaryMade (t : FileTree) (p : Path) : Except Failure Location → FileTree → Prop
  | granted {place : Location} {u : FileTree} (h : t.makeTemporary p = .ok (place, u)) : TemporaryMade t p (.ok place) u
  | refused {r : FileTree.Refusal} (h : t.makeTemporary p = .error r) : TemporaryMade t p (.error (.refused r)) t

theorem ensures_temporary (t : FileTree) (p : Path) : (temporary p).Ensures t (TemporaryMade t p) := by
  rintro w rfl
  rw [temporary, World.run_ask]
  simp only [World.answer]
  cases h : w.tree.makeTemporary p with
  | ok made => exact .granted h
  | error r => exact .refused h

theorem ensures_fill {place : Location} {content : Octets} {next : Unit → Job β}
    (h : (next ()).Ensures (t.fill place content) last) : (fill place content >>= next).Ensures t last := by
  rintro w rfl
  exact h _ rfl

theorem ensures_move (t : FileTree) (place : Location) (p : Path) :
    (move place p).Ensures t (Changed t (t.move place p)) := by
  rintro w rfl
  exact changed w (w.tree.move place p)

theorem ensures_discard {place : Location} {next : Unit → Job β} (h : (next ()).Ensures (t.discard place) last) :
    (discard place >>= next).Ensures t last := by
  rintro w rfl
  exact h _ rfl

theorem ensures_note {e : Log.Entry} {next : Unit → Job β} (h : (next ()).Ensures t last) :
    (note e >>= next).Ensures t last := by
  rintro w rfl
  exact h _ rfl

theorem ensures_print {stream : Stream} {s : Text} {next : Unit → Job β} (h : (next ()).Ensures t last) :
    (print stream s >>= next).Ensures t last := by
  rintro w rfl
  exact h _ rfl

theorem ensures_time {next : Nat → Job β} (h : (next 0).Ensures t last) : (time >>= next).Ensures t last := by
  rintro w rfl
  exact h _ rfl

theorem ensures_notes {next : Unit → Job β} (es : List Log.Entry) (h : (next ()).Ensures t last) :
    (notes es >>= next).Ensures t last := by
  induction es with
  | nil => exact h
  | cons e es ih =>
    rintro w rfl
    exact ih _ rfl

theorem Ensures.timed (label : Text) (h : j.Ensures t post) : (Job.timed label j).Ensures t post := by
  unfold Job.timed
  refine ensures_time (h.attempt fun r u hr => ensures_time (ensures_note ?_))
  exact ensures_ofExcept hr

section Asks

theorem Asks.bind (h : j.Asks kind) (hk : ∀ a, (k a).Asks kind) : (j >>= k).Asks kind := by
  change (j.bind k).Asks kind
  induction j with
  | done a => exact hk a
  | failed f => trivial
  | ask r next ih => exact ⟨h.1, fun answer => ih answer (h.2 answer)⟩

theorem Asks.attempt (h : j.Asks kind) : j.attempt.Asks kind := by
  induction j with
  | done a => trivial
  | failed f => trivial
  | ask r next ih => exact ⟨h.1, fun answer => ih answer (h.2 answer)⟩

theorem asks_pure (a : α) : (pure a : Job α).Asks kind := trivial

theorem asks_failed (f : Failure) : (failed f : Job α).Asks kind := trivial

theorem asks_ofExcept (r : Except Failure α) : (ofExcept r).Asks kind := by
  cases r <;> trivial

theorem asks_granted (a : Except FileTree.Refusal α) : (granted a).Asks kind := by
  cases a <;> trivial

theorem asks_look (h : t.look p = u.look p) : (look p).Asks (Request.Alike t u) := ⟨h, asks_granted⟩

theorem asks_read (h : t.read p = u.read p) : (read p).Asks (Request.Alike t u) := ⟨h, asks_granted⟩

theorem asks_note (e : Log.Entry) : (note e).Asks (Request.Alike t u) := ⟨trivial, fun _ => trivial⟩

theorem asks_notes (es : List Log.Entry) : (notes es).Asks (Request.Alike t u) := by
  induction es with
  | nil => trivial
  | cons e es ih => exact ⟨trivial, fun _ => ih⟩

theorem Asks.run_eq (h : j.Asks (Request.Alike t u)) {w w' : World} (hw : w.tree = t) (hw' : w'.tree = u) :
    (World.run j w).1 = (World.run j w').1 ∧ (World.run j w).2.tree = t ∧ (World.run j w').2.tree = u := by
  induction j generalizing w w' with
  | done a => exact ⟨rfl, hw, hw'⟩
  | failed f => exact ⟨rfl, hw, hw'⟩
  | ask r next ih =>
    obtain ⟨alike, others⟩ := h
    have answers : (w.answer r).1 = (w'.answer r).1 ∧ (w.answer r).2.tree = t ∧ (w'.answer r).2.tree = u := by
      subst hw hw'
      cases r with
      | look p => exact ⟨alike, rfl, rfl⟩
      | read p => exact ⟨alike, rfl, rfl⟩
      | time => exact ⟨rfl, rfl, rfl⟩
      | note e => exact ⟨rfl, rfl, rfl⟩
      | makeFolder p => exact alike.elim
      | write p content => exact alike.elim
      | temporary p => exact alike.elim
      | fill place content => exact alike.elim
      | move place p => exact alike.elim
      | discard place => exact alike.elim
      | print stream s => exact alike.elim
      | name label => exact alike.elim
    rw [World.run_ask, World.run_ask, ← answers.1]
    exact ih _ (others _) answers.2.1 answers.2.2

theorem Asks.ensures (h : j.Asks (Request.Alike t t)) : j.Ensures t fun r u => r = j.resultIn t ∧ u = t := by
  intro w hw
  have start : ({ tree := t } : World).tree = t := rfl
  obtain ⟨result, tree, -⟩ := h.run_eq hw start
  exact ⟨result, tree⟩

theorem Asks.resultIn_eq (h : j.Asks (Request.Alike t u)) : j.resultIn t = j.resultIn u := (h.run_eq rfl rfl).1

end Asks

end Job

end EntityScaffold
