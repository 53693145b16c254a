import EntityScaffold.Proofs.Artifact.Places
import EntityScaffold.Proofs.Entries
import EntityScaffold.Proofs.Run.Files
import EntityScaffold.Run.Engine

/-
What the template engine finds in a tree. The files that a project generates are no templates, so what is found stays
the same while they are written.
-/

namespace EntityScaffold.Run

open Artifact (Kind)
open FileTree (Change SourceChange)
open Template (substitute)

variable {t u : FileTree} {k : Kind} {f : Failure} {x : Text} {folder : Option Path} {root : Path} {files : Set Path}
variable {r : Except Failure Text}

/-- The template of a kind, as a tree shows it to an engine with a folder. -/
def templateIn (folder : Option Path) (t : FileTree) (k : Kind) : Except Failure Text :=
  (Engine.readTemplate { folder := folder } k).resultIn t

def templatePath (folder : Path) (k : Kind) : Path := folder / Path.ofText k.layout.template

theorem asks_readTemplate (e : Engine) (k : Kind)
    (h : ∀ folder ∈ e.folder, t.read (templatePath folder k) = u.read (templatePath folder k)) :
    (e.readTemplate k).Asks (Request.Alike t u) := by
  unfold Engine.readTemplate
  split
  · exact Job.asks_pure _
  · next folder hfolder =>
    refine ((Job.asks_read (h folder hfolder)).bind fun _ => Job.asks_ofExcept _).attempt.bind fun r => ?_
    cases r with
    | ok x => exact Job.asks_pure x
    | error f =>
      dsimp only
      split
      · exact Job.asks_failed _
      · exact Job.asks_failed _

theorem ensures_readTemplate (e : Engine) (k : Kind) (t : FileTree) :
    (e.readTemplate k).Ensures t fun r u => r = templateIn e.folder t k ∧ u = t :=
  (asks_readTemplate e k fun _ _ => rfl).ensures

theorem templateIn_some (p : Path) (t : FileTree) (k : Kind) :
    templateIn (some p) t k = match textAt t (templatePath p k) with
      | .ok x => .ok x
      | .error f =>
        if f.isSystem || f.isUndecodable then .error (.templateUnreadable k (templatePath p k).text f.message)
        else .error f := by
  have post : (Engine.readTemplate { folder := some p } k).Ensures t fun r _ =>
      r = match textAt t (templatePath p k) with
        | .ok x => .ok x
        | .error f =>
          if f.isSystem || f.isUndecodable then .error (.templateUnreadable k (templatePath p k).text f.message)
          else .error f := by
    refine (ensures_readText t (templatePath p k)).attempt ?_
    rintro r u ⟨rfl, rfl⟩
    cases textAt u (templatePath p k) with
    | ok x => exact Job.ensures_pure rfl
    | error f =>
      dsimp only [templatePath]
      split
      · exact Job.ensures_failed rfl
      · exact Job.ensures_failed rfl
  exact post.resultIn.elim fun _ h => h

/-- What a tree shows of the template of a kind: the text of the file at its place in the folder, with its line ends unified, or
the template's failure if the system refuses to read the file or its octets are no text. A path that holds a null character never
reaches the system, and the failure is another one. Without a folder the packaged template is meant. -/
inductive Shows (t : FileTree) (k : Kind) : Option Path → Except Failure Text → Prop
  | packaged : Shows t k none (.ok k.packaged)
  | text {p : Path} {octets : Octets} {x : Text} (read : t.read (templatePath p k) = .ok octets)
      (decoded : Utf8.decode octets = .ok x) : Shows t k (some p) (.ok (Text.unifyLineEnds x))
  | undecodable {p : Path} {octets : Octets} {fault : Utf8.Fault} (read : t.read (templatePath p k) = .ok octets)
      (decoded : Utf8.decode octets = .error fault) :
      Shows t k (some p) (.error (.templateUnreadable k (templatePath p k).text fault.message))
  | refused {p : Path} {refusal : FileTree.Refusal} (read : t.read (templatePath p k) = .error refusal)
      (reached : '\x00' ∉ (templatePath p k).text) :
      Shows t k (some p) (.error (.templateUnreadable k (templatePath p k).text refusal.message))
  | unreached {p : Path} (null : '\x00' ∈ (templatePath p k).text) : Shows t k (some p) (.error (.refused .nullInPath))

theorem read_of_null {p : Path} (null : '\x00' ∈ p.text) : t.read p = .error .nullInPath := by
  simp [FileTree.read, FileTree.spot, null, bind, Except.bind]

theorem textAt_of_null {p : Path} (null : '\x00' ∈ p.text) : textAt t p = .error (.refused .nullInPath) := by
  simp only [textAt, read_of_null null]

theorem shows_templateIn (folder : Option Path) (t : FileTree) (k : Kind) : Shows t k folder (templateIn folder t k) := by
  cases folder with
  | none => exact .packaged
  | some p =>
    rw [templateIn_some]
    by_cases null : '\x00' ∈ (templatePath p k).text
    · rw [textAt_of_null null]
      exact .unreached null
    · cases read : t.read (templatePath p k) with
      | error refusal =>
        obtain ⟨-, there⟩ | ⟨reason, path, target, rfl⟩ := read_error read
        · exact absurd there null
        · simp only [textAt, read]
          exact .refused read null
      | ok octets =>
        cases decoded : Utf8.decode octets with
        | ok y =>
          simp only [textAt, read, textOfOctets, decoded]
          exact .text read decoded
        | error fault =>
          simp only [textAt, read, textOfOctets, decoded]
          exact .undecodable read decoded

theorem Shows.eq_templateIn (h : Shows t k folder r) : r = templateIn folder t k := by
  cases h with
  | packaged => rfl
  | text read decoded => simp only [templateIn_some, textAt, read, textOfOctets, decoded]
  | undecodable read decoded =>
    simp only [templateIn_some, textAt, read, textOfOctets, decoded]
    rfl
  | refused read reached =>
    obtain ⟨-, there⟩ | ⟨reason, path, target, rfl⟩ := read_error read
    · exact absurd there reached
    · simp only [templateIn_some, textAt, read]
      rfl
  | unreached null =>
    simp only [templateIn_some, textAt_of_null null]
    rfl

theorem Shows.failure (h : Shows t k folder (.error f)) :
    ∃ p ∈ folder,
      ('\x00' ∉ (templatePath p k).text ∧ ∃ reason, f = .templateUnreadable k (templatePath p k).text reason) ∨
      ('\x00' ∈ (templatePath p k).text ∧ f = .refused .nullInPath) := by
  cases h with
  | @undecodable p octets fault read _ =>
    have reached : '\x00' ∉ (templatePath p k).text := fun null => by
      rw [read_of_null null] at read
      exact absurd read (by simp)
    exact ⟨p, rfl, Or.inl ⟨reached, _, rfl⟩⟩
  | @refused p refusal _ reached => exact ⟨p, rfl, Or.inl ⟨reached, _, rfl⟩⟩
  | @unreached p null => exact ⟨p, rfl, Or.inr ⟨null, rfl⟩⟩

theorem templateIn_ok_iff {p : Path} : templateIn (some p) t k = .ok x ↔ textAt t (templatePath p k) = .ok x := by
  rw [templateIn_some]
  cases textAt t (templatePath p k) with
  | ok y => exact Iff.rfl
  | error f =>
    dsimp only
    split <;> simp

theorem templateIn_error (h : templateIn folder t k = .error f) :
    f.isOfArtifact = true ∨ (f = .refused .nullInPath ∧ ∃ p ∈ folder, '\x00' ∈ (templatePath p k).text) := by
  obtain ⟨p, hp, ⟨-, reason, rfl⟩ | ⟨null, rfl⟩⟩ := (h ▸ shows_templateIn folder t k).failure
  · exact Or.inl rfl
  · exact Or.inr ⟨rfl, p, hp, null⟩

theorem templatePath_eq (p : Path) (k : Kind) : templatePath p k = ⟨p.root, p.parts ++ [k.layout.template]⟩ := by
  have checks : ∀ k ∈ Kind.all, Path.ofText k.layout.template = ⟨.here, [k.layout.template]⟩ := by decide
  rw [templatePath, checks k k.mem_all]
  rfl

theorem template_not_source (k : Kind) : ¬ ".ts".toList <:+ k.layout.template ∧ k.layout.template ≠ "..".toList :=
  (show ∀ k ∈ Kind.all, ¬ ".ts".toList <:+ k.layout.template ∧ k.layout.template ≠ "..".toList by decide)
    k k.mem_all

theorem templatePath_parent (p : Path) (k : Kind) : (templatePath p k).parent = p := by
  rw [templatePath_eq, Path.parent, List.dropLast_concat]

theorem templatePath_not_mem_sources (t : FileTree) (p : Path) (k : Kind) (root : Path) (files : Set Path) :
    t.locationOf (templatePath p k) ∉ t.sources root files := by
  have named : (templatePath p k).HasName := by
    rw [templatePath_eq]
    exact ⟨by simp, by simpa [Path.name] using (template_not_source k).2⟩
  rw [FileTree.locationOf_eq named]
  refine FileTree.not_mem_sources_of_name ?_
  rw [templatePath_eq]
  simpa [Path.name] using (template_not_source k).1

/-- Where the folder of the templates is there: the same templates are found after source files were written. -/
theorem templateIn_ok_iff_of_change (change : SourceChange root files t u)
    (folders : ∀ p ∈ folder, ∀ l ∈ t.passedBy p, t.get? l = some .folder) :
    templateIn folder u k = .ok x ↔ templateIn folder t k = .ok x := by
  cases folder with
  | none => rfl
  | some p =>
    have same (content : Octets) :
        u.read (templatePath p k) = .ok content ↔ t.read (templatePath p k) = .ok content := by
      refine change.read_iff (templatePath_not_mem_sources t p k root files) ?_
      rw [templatePath_parent]
      exact folders p rfl
    rw [templateIn_ok_iff, templateIn_ok_iff, textAt_ok_iff, textAt_ok_iff]
    simp only [same]

theorem folders_of_templateIn (h : templateIn folder t k = .ok x) :
    ∀ p ∈ folder, ∀ l ∈ t.passedBy p, t.get? l = some .folder := by
  rintro p rfl
  obtain ⟨octets, hread, -⟩ := textAt_ok_iff.1 (templateIn_ok_iff.1 h)
  have folders := (FileTree.read_eq_ok_iff.1 hread).2.2.1
  rwa [templatePath_parent] at folders

def Engine.keep (e : Engine) (k : Kind) (x : Text) : Engine := { e with templates := Entries.put k x e.templates }

/-- The template of a kind as an engine gives it in a tree: the one that it has read, else the one that the tree shows. -/
def Engine.template (e : Engine) (t : FileTree) (k : Kind) : Except Failure Text :=
  match Entries.get? k e.templates with
  | some x => .ok x
  | none => templateIn e.folder t k

theorem Engine.template_of_fresh {e : Engine} (fresh : Entries.get? k e.templates = none) :
    e.template t k = templateIn e.folder t k := by
  rw [Engine.template, fresh]

theorem Engine.template_of_known {e : Engine} (known : Entries.get? k e.templates = some x) : e.template t k = .ok x := by
  rw [Engine.template, known]

theorem Engine.keep_of_known {e : Engine} (known : Entries.get? k e.templates = some x) : e.keep k x = e := by
  rw [Engine.keep, Entries.put_of_get? known]

theorem ensures_load (e : Engine) (k : Kind) (t : FileTree) :
    (e.load k).Ensures t fun r u => r = (e.template t k).map (fun x => (x, e.keep k x)) ∧ u = t := by
  unfold Engine.load
  cases known : Entries.get? k e.templates with
  | some x =>
    refine Job.ensures_pure ⟨?_, rfl⟩
    rw [Engine.template_of_known known]
    exact congrArg (fun e' => Except.ok (x, e')) (Engine.keep_of_known known).symm
  | none =>
    rw [Engine.template_of_fresh known]
    refine (ensures_readTemplate e k t).bind ?_ ?_
    · rintro x u ⟨found, rfl⟩
      rw [← found]
      exact Job.ensures_pure ⟨rfl, rfl⟩
    · rintro f u ⟨found, rfl⟩
      rw [← found]
      exact ⟨rfl, rfl⟩

theorem ensures_render (e : Engine) (k : Kind) (context : Template.Context) (t : FileTree) :
    (e.render k context).Ensures t fun r u =>
      r = (e.template t k).map (fun x => (substitute x context, e.keep k x)) ∧ u = t := by
  unfold Engine.render
  refine (ensures_load e k t).bind ?_ ?_
  · rintro ⟨x, e'⟩ u ⟨loaded, rfl⟩
    refine Job.ensures_notes _ (Job.ensures_pure ⟨?_, rfl⟩)
    cases found : e.template u k with
    | error f => simp [found, Except.map] at loaded
    | ok y =>
      simp only [found, Except.map, Except.ok.injEq, Prod.mk.injEq] at loaded ⊢
      exact ⟨by rw [loaded.1], loaded.2⟩
  · rintro f u ⟨loaded, rfl⟩
    refine ⟨?_, rfl⟩
    cases found : e.template u k with
    | error f' =>
      simp only [found, Except.map, Except.error.injEq] at loaded ⊢
      exact loaded
    | ok y => simp [found, Except.map] at loaded

end EntityScaffold.Run
