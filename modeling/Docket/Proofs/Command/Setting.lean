import Docket.Proofs.Command.Session
import Docket.Proofs.Settings.Restoring

/-! Setting one key of a settings file. If that fails, no file has changed; if not, the leaf is shown
as the value in its form and every other leaf as before. -/
namespace Docket.ConfigAction
open Json Value Machine Session

/-- What a key names is printed from the settings file. -/
def Shows (m : Machine) (path key : String) (v : Value) : Prop :=
  ∀ p : Printed, (getSetting path key : Session (StateM Machine) Unit).runOn p m =
    ((.ok (), { p with output := p.output ++ pretty v ++ "\n" }), m)

section File
variable {m : Machine} {path content : String} {s : Settings Float}
variable (opened : m.Opens path (.text content))
  (valid : decodeText Settings.decoder content = .ok s)
include opened valid

end File

/-- What setting a key of a settings file may come to. -/
structure Sets (s : Settings Float) (path key text : String) (m : Machine)
    (outcome : Except CommandError Unit) (m' : Machine) : Prop where
  /-- A key has to name something. -/
  named : shown s key = none → ∃ e, outcome = .error e
  /-- A failure changes no file. -/
  unharmed : ∀ e, outcome = .error e → ∀ place, m'.tree.fileAt place = m.tree.fileAt place
  /-- No other file has changed either way. -/
  elsewhere : ∀ place, place ≠ FileTree.placeOf m.home path →
    m'.tree.fileAt place = m.tree.fileAt place
  /-- The leaf is the value in its form. -/
  set : ∀ old, outcome = .ok () → shown s key = some old → old.Leaf →
    Shows m' path key (inForm old (readValue text))
  /-- Every other leaf is as before. -/
  others : ∀ old, outcome = .ok () → shown s key = some old → old.Leaf →
    ∀ other o, other ≠ key → shown s other = some o → o.Leaf → Shows m' path other o

section Outcomes
variable {m m₁ : Machine} {path key text : String} {s : Settings Float}
variable (kept : m.Keeps (fun _ => True) m₁)
include kept

end Outcomes

end Docket.ConfigAction
