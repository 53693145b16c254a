import EntityScaffold.Proofs.Run.Files
import EntityScaffold.Settings.Resolve

/-
Loading the settings of a run. All that is done is looking and reading, so a tree decides how it ends. Most of what can go
wrong is told as a failure of the settings; each other failure has a ground of its own in the tree.
-/

namespace EntityScaffold.Settings

open Data (Datum)
open Run (textAt)

variable {t : FileTree} {p : Path} {f : Failure} {file root : Option Path}

/-- The entries of the settings file at a path. -/
def entriesAt (t : FileTree) (p : Path) : Except Failure (List (Datum × Datum)) :=
  match textAt t p with
  | .ok text => entriesOf p text
  | .error f => .error (if f.isSystem then .settingsUnreadable p.text f.message else f)

/-- Where settings are looked for that no path is given for. -/
def defaultPath (root : Option Path) : Path := root.getD Path.here / defaultFile

/-- The entries of the named settings file, or of the default one. -/
def entriesIn (t : FileTree) (file root : Option Path) : Except Failure (List (Datum × Datum)) :=
  match file with
  | some p => entriesAt t p
  | none =>
    match t.look (defaultPath root) with
    | .ok .file => entriesAt t (defaultPath root)
    | .ok _ => .ok []
    | .error r => .error (.refused r)

def allEntries (root : Option Path) (overrides : List (Text × Datum)) (entries : List (Datum × Datum)) :
    List (Datum × Datum) :=
  overridden (match root with
    | some p => Datum.put Key.projectRoot.name (.text p.text) entries
    | none => entries) overrides

def resolvedIn (t : FileTree) (file root : Option Path) (overrides : List (Text × Datum)) : Except Failure Settings :=
  match entriesIn t file root with
  | .error f => .error f
  | .ok entries =>
    match ofDatum (.map (allEntries root overrides entries)) with
    | .good s => .ok s
    | .bad issues => .error (.settingsInvalid issues)

theorem ensures_loadFile (t : FileTree) (p : Path) : (loadFile p).Ensures t fun r u => r = entriesAt t p ∧ u = t := by
  refine (Run.ensures_readText t p).attempt ?_
  rintro r u ⟨read, rfl⟩
  cases r with
  | ok text => exact Job.ensures_ofExcept ⟨by simp only [entriesAt, ← read], rfl⟩
  | error f =>
    dsimp only
    split
    · next system => exact Job.ensures_failed ⟨by simp only [entriesAt, ← read, system, if_true], rfl⟩
    · next other => exact Job.ensures_failed ⟨by simp only [entriesAt, ← read, if_neg other], rfl⟩

theorem ensures_loadAndNote (t : FileTree) (p : Path) :
    (loadAndNote p).Ensures t fun r u => r = entriesAt t p ∧ u = t := by
  refine (ensures_loadFile t p).bind ?_ fun f u h => h
  rintro entries u ⟨loaded, rfl⟩
  exact Job.ensures_note (Job.ensures_pure ⟨loaded, rfl⟩)

theorem ensures_fileEntries (t : FileTree) (file root : Option Path) :
    (fileEntries file root).Ensures t fun r u => r = entriesIn t file root ∧ u = t := by
  cases file with
  | some p => exact ensures_loadAndNote t p
  | none =>
    refine (Job.ensures_look t (defaultPath root)).bind ?_ ?_
    · rintro sight u ⟨look⟩
      cases sight with
      | file =>
        refine (ensures_loadAndNote t (defaultPath root)).mono fun r v h => ?_
        simpa only [entriesIn, look] using h
      | nothing => exact Job.ensures_pure ⟨by simp only [entriesIn, look], rfl⟩
      | folder => exact Job.ensures_pure ⟨by simp only [entriesIn, look], rfl⟩
    · rintro f u (_ | look)
      exact ⟨by simp only [entriesIn, look], rfl⟩

theorem ensures_resolve (t : FileTree) (file root : Option Path) (overrides : List (Text × Datum)) :
    (resolve file root overrides).Ensures t fun r u => r = resolvedIn t file root overrides ∧ u = t := by
  refine (ensures_fileEntries t file root).bind ?_ ?_
  · rintro entries u ⟨loaded, rfl⟩
    change Job.Ensures u (match ofDatum (.map (allEntries root overrides entries)) with
      | .good s => pure s
      | .bad issues => .failed (.settingsInvalid issues)) _
    simp only [resolvedIn, ← loaded]
    cases ofDatum (.map (allEntries root overrides entries)) with
    | good s => exact Job.ensures_pure ⟨rfl, rfl⟩
    | bad issues => exact Job.ensures_failed ⟨rfl, rfl⟩
  · rintro f u ⟨loaded, rfl⟩
    exact ⟨by simp only [resolvedIn, ← loaded], rfl⟩

theorem resultIn_loadFile (t : FileTree) (p : Path) : (loadFile p).resultIn t = entriesAt t p :=
  (ensures_loadFile t p { tree := t } rfl).1

theorem resultIn_resolve (t : FileTree) (file root : Option Path) (overrides : List (Text × Datum)) :
    (resolve file root overrides).resultIn t = resolvedIn t file root overrides :=
  (ensures_resolve t file root overrides { tree := t } rfl).1

/-- What a file of settings fails with, other than with a failure of the settings: its path never reaches the system, its
octets are no text, or a value in it cannot be made. -/
inductive Unread (t : FileTree) (p : Path) : Failure → Prop
  | nullInPath (null : '\x00' ∈ p.text) : Unread t p (.refused .nullInPath)
  | undecodable {octets : Octets} {fault : Utf8.Fault} (file : t.read p = .ok octets)
      (fault_ : Utf8.decode octets = .error fault) : Unread t p (.undecodable fault)
  | flawed {octets : Octets} {text : Text} {flaw : Yaml.Flaw} (file : t.read p = .ok octets)
      (decoded : Utf8.decode octets = .ok text) (value : Yaml.read (Text.unifyLineEnds text) = .error (.flawed flaw)) :
      Unread t p (.flawed flaw)

/-- What settings fail with, other than with a failure of the settings. -/
inductive Unresolved (t : FileTree) (file root : Option Path) : Failure → Prop
  | named {p : Path} {f : Failure} (named : file = some p) (unread : Unread t p f) : Unresolved t file root f
  | default {f : Failure} (unnamed : file = none) (look : t.look (defaultPath root) = .ok .file)
      (unread : Unread t (defaultPath root) f) : Unresolved t file root f
  | refused {r : FileTree.Refusal} (unnamed : file = none) (look : t.look (defaultPath root) = .error r) :
      Unresolved t file root (.refused r)

theorem Unread.other (h : Unread t p f) : f.isOfSettings = false := by cases h <;> rfl

theorem Unresolved.other (h : Unresolved t file root f) : f.isOfSettings = false := by
  cases h with
  | named _ unread => exact unread.other
  | default _ _ unread => exact unread.other
  | refused => rfl

theorem ne_of_isOfSettings {told : Failure} (other : f.isOfSettings = false) (h : told.isOfSettings = true) : told ≠ f := by
  rintro rfl
  exact absurd h (by simp [other])

theorem entriesOf_error_iff {text : Text} (other : f.isOfSettings = false) :
    entriesOf p text = .error f ↔ ∃ flaw, Yaml.read text = .error (.flawed flaw) ∧ f = .flawed flaw := by
  unfold entriesOf
  split
  · next read =>
    constructor
    · intro h
      exact absurd (Except.error.inj h) (ne_of_isOfSettings other rfl)
    · rintro ⟨flaw, h, -⟩
      exact absurd (read.symm.trans h) (by simp)
  · next flaw read => simp [read, eq_comm]
  · next read => simp [read]
  · next read => simp [read]
  · next d null map read =>
    constructor
    · intro h
      exact absurd (Except.error.inj h) (ne_of_isOfSettings other rfl)
    · rintro ⟨flaw, h, -⟩
      exact absurd (read.symm.trans h) (by simp)

theorem entriesAt_error_iff (other : f.isOfSettings = false) : entriesAt t p = .error f ↔ Unread t p f := by
  constructor
  · intro h
    unfold entriesAt at h
    split at h
    · next text read =>
      obtain ⟨octets, file, decoded⟩ := Run.textAt_ok_iff.1 read
      obtain ⟨flaw, value, rfl⟩ := (entriesOf_error_iff other).1 h
      unfold Run.textOfOctets at decoded
      split at decoded
      · next plain hplain =>
        obtain rfl := Except.ok.inj decoded
        exact .flawed file hplain value
      · exact absurd decoded (by simp)
    · next f' read =>
      have h := Except.error.inj h
      split at h
      · exact absurd h (ne_of_isOfSettings other rfl)
      · next notSystem =>
        subst h
        rcases Run.textAt_error read with (system | ⟨rfl, null⟩) | ⟨octets, fault, file, fault_, rfl⟩
        · exact absurd system notSystem
        · exact .nullInPath null
        · exact .undecodable file fault_
  · intro h
    cases h with
    | nullInPath null =>
      have read : t.read p = .error .nullInPath := by simp [FileTree.read, FileTree.spot, null, bind, Except.bind]
      simp [entriesAt, textAt, read, Failure.isSystem]
    | undecodable file fault_ => simp [entriesAt, textAt, file, Run.textOfOctets, fault_, Failure.isSystem]
    | flawed file decoded value => simp [entriesAt, textAt, file, Run.textOfOctets, decoded, entriesOf, value]

theorem entriesIn_error_iff (other : f.isOfSettings = false) :
    entriesIn t file root = .error f ↔ Unresolved t file root f := by
  cases file with
  | some p =>
    rw [entriesIn, entriesAt_error_iff other]
    constructor
    · exact fun unread => .named rfl unread
    · rintro (⟨named, unread⟩ | ⟨unnamed, -, -⟩ | ⟨unnamed, -⟩)
      · exact Option.some.inj named ▸ unread
      · exact absurd unnamed (by simp)
      · exact absurd unnamed (by simp)
  | none =>
    unfold entriesIn
    dsimp only
    split
    · next look =>
      rw [entriesAt_error_iff other]
      constructor
      · exact fun unread => .default rfl look unread
      · rintro (⟨named, -⟩ | ⟨-, -, unread⟩ | ⟨-, refused⟩)
        · exact absurd named (by simp)
        · exact unread
        · exact absurd (look.symm.trans refused) (by simp)
    · next sight noFile look =>
      constructor
      · exact fun h => absurd h (by simp)
      · rintro (⟨named, -⟩ | ⟨-, file, -⟩ | ⟨-, refused⟩)
        · exact absurd named (by simp)
        · exact absurd (Except.ok.inj (look.symm.trans file)) noFile
        · exact absurd (look.symm.trans refused) (by simp)
    · next r look =>
      constructor
      · intro h
        obtain rfl := Except.error.inj h
        exact .refused rfl look
      · rintro (⟨named, -⟩ | ⟨-, file, -⟩ | ⟨-, refused⟩)
        · exact absurd named (by simp)
        · exact absurd (look.symm.trans file) (by simp)
        · rw [Except.error.inj (look.symm.trans refused)]

theorem resolvedIn_error_iff (other : f.isOfSettings = false) (overrides : List (Text × Datum)) :
    resolvedIn t file root overrides = .error f ↔ Unresolved t file root f := by
  rw [← entriesIn_error_iff other]
  unfold resolvedIn
  cases entriesIn t file root with
  | error f' => simp
  | ok entries =>
    dsimp only
    split
    · simp
    · constructor
      · exact fun h => absurd (Except.error.inj h) (ne_of_isOfSettings other rfl)
      · exact fun h => absurd h (by simp)

end EntityScaffold.Settings
