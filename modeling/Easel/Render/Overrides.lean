/-
  Easel.Render.Overrides — settings that depend on the hardware.

  A database is a list of rules. A rule applies when its patterns occur in what the hardware reports, case
  ignored, and all its extensions are there; then its settings hold, later rules winning over earlier
  ones. They make a layer of their own just above the plugins.
-/
import Easel.Config.Layers
import Easel.Json.Access
import Easel.Json.Reader
import Easel.Render.Extensions
import Easel.Text.Lowercase

namespace Easel.Render

open Text

structure Hardware where
  vendor : Option String := none
  renderer : Option String := none
  version : Option String := none
  deriving DecidableEq, Repr

structure Rule where
  description : Option String := none
  vendor : Option String := none
  renderer : Option String := none
  version : Option String := none
  extensions : List String := []
  /-- Settings by key, in ascending order. -/
  settings : List (String × Json.Value) := []

structure Overrides where
  rules : List Rule

def occursIn (p : List Char) : List Char → Bool
  | [] => p.isEmpty
  | c :: cs => p.isPrefixOf (c :: cs) || occursIn p cs

/-- A pattern matches what it occurs in, case ignored; without a pattern everything matches. -/
def matchesText (pattern reported : Option String) : Bool :=
  match pattern, reported with
  | none, _ => true
  | some p, some s => occursIn (Lowercase.full p).toList (Lowercase.full s).toList
  | some _, none => false

def Rule.applies (r : Rule) (hw : Hardware) (extensions : Extensions) : Bool :=
  matchesText r.vendor hw.vendor && matchesText r.renderer hw.renderer && matchesText r.version hw.version
    && r.extensions.all extensions.has

/-- The text of a setting: strings as they are, other data as compact text. -/
def settingText : Json.Value → String
  | .string text => text.getD ""
  | v => v.compact

namespace Overrides

def none : Overrides := ⟨[]⟩

def table (o : Overrides) (hw : Hardware) (extensions : Extensions) : Config.Table :=
  (o.rules.filter (·.applies hw extensions)).foldl
    (fun t r => r.settings.foldl (fun t (key, v) => t.set key (settingText v)) t) .empty

def layerName : String := "driverdb"

def layerPriority : Int := Config.pluginPriority + 20

/-- Puts the settings into their layer, in place of those from before: how many, and the new layers. -/
def apply (o : Overrides) (layers : Config.Layers) (hw : Hardware) (extensions : Extensions) :
    Nat × Config.Layers :=
  let table := o.table hw extensions
  (table.size, if table.isEmpty then layers.remove layerName else layers.add layerName layerPriority table)

/-! ## Reading a database -/

mutual

/-- Whether a value can be used: no number beyond all doubles, no half surrogate pairs, and no deeper than
    `depth` levels. -/
def isSound (depth : Nat) : Json.Value → Bool
  | .number .tooLarge => false
  | .string text => text.isSome
  | .array items => decide (0 < depth) && allSound (depth - 1) items
  | .object members => decide (0 < depth) && allMembersSound (depth - 1) members
  | _ => true

def allSound (depth : Nat) : List Json.Value → Bool
  | [] => true
  | v :: vs => isSound depth v && allSound depth vs

def allMembersSound (depth : Nat) : List (Option String × Json.Value) → Bool
  | [] => true
  | (key, v) :: rest => key.isSome && isSound depth v && allMembersSound depth rest

end

def settingDepth : Nat := 123

def settings? : Json.Value → Option (List (String × Json.Value))
  | .object members =>
    if allMembersSound settingDepth members then
      some (Json.sortMembers (members.map fun (key, v) => (key.getD "", v)))
    else Option.none
  | _ => Option.none

/-- The fields of a rule, in the order in which a list gives them. -/
def ruleFields : List String := ["description", "vendor", "renderer", "version", "extensions", "config"]

/-- Sets a field of a rule. Fields that a rule does not have are left out. -/
def setField (r : Rule) (field : String) (v : Json.Value) : Option Rule :=
  if field = "description" then (v.orNull? Json.Value.text?).map fun description => { r with description }
  else if field = "vendor" then (v.orNull? Json.Value.text?).map fun vendor => { r with vendor }
  else if field = "renderer" then (v.orNull? Json.Value.text?).map fun renderer => { r with renderer }
  else if field = "version" then (v.orNull? Json.Value.text?).map fun version => { r with version }
  else if field = "extensions" then (v.list? Json.Value.text?).map fun extensions => { r with extensions }
  else if field = "config" then (settings? v).map fun settings => { r with settings }
  else some r

/-- The members of an object, or of a list that gives its first fields in order. No key of these fields is
    given twice, and no list is longer than they are. -/
def record? (fields : List String) : Json.Value → Option (List (String × Json.Value))
  | .object members => do
    let named ← members.mapM fun (key, v) => key.map (·, v)
    if fields.all fun f => decide (named.countP (·.1 == f) ≤ 1) then some named else Option.none
  | .array items => if items.length ≤ fields.length then some (fields.zip items) else Option.none
  | _ => Option.none

def rule? (v : Json.Value) : Option Rule := do
  (← record? ruleFields v).foldlM (fun r (field, v) => setField r field v) {}

def rules? : Json.Value → Option (List Rule)
  | .array items => items.mapM rule?
  | _ => Option.none

def ofJson? (v : Json.Value) : Option Overrides := do
  let members ← record? ["rules"] v
  match members.find? (·.1 == "rules") with
  | some (_, v) => (rules? v).map Overrides.mk
  | Option.none => return none

def errorMessage : String := "Failed to parse driver database"

def parse? (text : String) : Option Overrides := (Json.parse? text).bind ofJson?

end Overrides

end Easel.Render
