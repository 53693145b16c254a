import EntityScaffold.Proofs.CommandLine.Status
import EntityScaffold.Proofs.Settings.Loading

/-
Failures of the settings as the program tells them: with their status, except for the few that no handler knows, which end the
program.
-/

namespace EntityScaffold.CommandLine

open Program
open Settings (Unread Unresolved)

variable {words : List Text} {a : Arguments} {w : World} {f : Failure} {names : Text × Text}

theorem verdict_of_settings (named : a.names w.input = .ok (.ok names)) (settings : a.settingsIn w.tree = .error f) :
    a.verdict w.tree w.input = if f.isOfSettings then .ok .settingsFailed else .error f := by
  simp only [Arguments.verdict, named, settings]

theorem status?_of_settings (clock : Log.Clock) (read : Arguments.read words = .ok a)
    (named : a.names w.input = .ok (.ok names)) (settings : a.settingsIn w.tree = .error f)
    (told : f.isOfSettings = true) : status? clock words w = some 3 := by
  refine status?_of_ok (o := .settingsFailed) ?_
  rw [run_result, read]
  exact (verdict_of_settings named settings).trans (if_pos told)

theorem run_of_settings (clock : Log.Clock) (read : Arguments.read words = .ok a)
    (named : a.names w.input = .ok (.ok names)) (settings : a.settingsIn w.tree = .error f)
    (other : f.isOfSettings = false) : (World.run (Program.run clock words) w).1 = .error f := by
  rw [run_result, read]
  exact (verdict_of_settings named settings).trans (if_neg (by simp [other]))

/-- However the tree and the overrides are: loading a file of settings and putting settings together end with settings or with a
failure of the settings, which the program tells by its status three, unless the path of the file holds a null character or is
refused when it is looked for, the file's octets are no text, or a value in its text cannot be made. Exactly then the failure is
another one, and nothing in the program takes it up. -/
theorem settings_failure (t : FileTree) (file root : Option Path) (overrides : List (Text × Data.Datum)) :
    (∀ p f, f.isOfSettings = false → ((Settings.loadFile p).resultIn t = .error f ↔ Unread t p f)) ∧
    (∀ f, f.isOfSettings = false →
      ((Settings.resolve file root overrides).resultIn t = .error f ↔ Unresolved t file root f)) ∧
    ∀ (clock : Log.Clock) (words : List Text) (a : Arguments) (w : World) (names : Text × Text),
      Arguments.read words = .ok a → a.names w.input = .ok (.ok names) →
        (∀ f, a.settingsIn w.tree = .error f → f.isOfSettings = true → status? clock words w = some 3) ∧
        ∀ f, Unresolved w.tree (path? a.settings) (path? a.projectRoot) f →
          (World.run (Program.run clock words) w).1 = .error f ∧ status? clock words w = none := by
  refine ⟨fun p f other => ?_, fun f other => ?_, fun clock words a w names read named => ⟨?_, ?_⟩⟩
  · rw [Settings.resultIn_loadFile]
    exact Settings.entriesAt_error_iff other
  · rw [Settings.resultIn_resolve]
    exact Settings.resolvedIn_error_iff other overrides
  · exact fun f settings told => status?_of_settings clock read named settings told
  · intro f unresolved
    have other := unresolved.other
    have settings : a.settingsIn w.tree = .error f := by
      rw [Arguments.settingsIn, Settings.resultIn_resolve]
      exact (Settings.resolvedIn_error_iff other _).2 unresolved
    have run := run_of_settings clock read named settings other
    exact ⟨run, by rw [status?, run]; rfl⟩

section Samples

open Run (decidableEqExcept)

def settingsTree (content : Octets) : FileTree := Run.workTree [] [("crudgen.yaml".toList, content)]

def strangeOctets : Octets := [255, 10]

/-- A setting that is a day of no calendar. -/
def strangeDay : Octets := Utf8.encode "schema_path: 2024-13-01\n".toList

def openSettings : Octets := Utf8.encode "paths: \x7b".toList

def strangeFault : Failure := .undecodable ⟨0, [255], .badStart⟩

def strangeFlaw : Failure := .flawed (.outOfRange "month must be in 1..12".toList)

theorem settings_failure_strange :
    Unresolved (settingsTree strangeDay) none none strangeFlaw ∧
    (Settings.loadFile (Settings.defaultPath none)).resultIn (settingsTree strangeDay) = .error strangeFlaw ∧
    (World.run (Program.run (.at []) widgetWords) { tree := settingsTree strangeDay }).1 = .error strangeFlaw ∧
    status? (.at []) widgetWords { tree := settingsTree openSettings } = some 3 := by
  have read : Arguments.read widgetWords = .ok widgetArguments := by decide +kernel
  have named : widgetArguments.names [] = .ok (.ok ("Widget".toList, "Widget".toList)) := by decide +kernel
  have resolved : (Settings.resolve none none []).resultIn (settingsTree strangeDay) = .error strangeFlaw := by
    decide +kernel
  have unclosed : widgetArguments.settingsIn (settingsTree openSettings) =
      .error (.settingsMalformed "crudgen.yaml".toList) := by decide +kernel
  obtain ⟨load, resolve, told⟩ := settings_failure (settingsTree strangeDay) none none []
  have unresolved : Unresolved (settingsTree strangeDay) none none strangeFlaw := (resolve strangeFlaw rfl).1 resolved
  refine ⟨unresolved, ?_, ?_, ?_⟩
  · obtain named | ⟨-, -, unread⟩ := unresolved
    · contradiction
    · exact (load (Settings.defaultPath none) strangeFlaw rfl).2 unread
  · exact ((told (.at []) widgetWords widgetArguments { tree := settingsTree strangeDay } _ read named).2
      strangeFlaw unresolved).1
  · exact (told (.at []) widgetWords widgetArguments { tree := settingsTree openSettings } _ read named).1 _ unclosed rfl

/-- Settings that are no text, and a setting that cannot be made, end the program without a status. -/
theorem strange_settings_escape :
    (Settings.resolve none none []).resultIn (settingsTree strangeOctets) = .error strangeFault ∧
    (Settings.resolve none none []).resultIn (settingsTree strangeDay) = .error strangeFlaw ∧
    strangeFault.isOfSettings = false ∧ strangeFlaw.isOfSettings = false ∧
    status? (.at []) widgetWords { tree := settingsTree strangeOctets } = none ∧
    status? (.at []) widgetWords { tree := settingsTree strangeDay } = none := by
  decide +kernel

end Samples

end EntityScaffold.CommandLine
