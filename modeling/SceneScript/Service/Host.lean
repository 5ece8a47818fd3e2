import SceneScript.Service.Basic

/-!
# The host of a service

A host has an environment and files, and at most one service, which it makes from the
environment when it is first needed and keeps from then on. What the service has to say is
kept in the order in which it happened.
-/

set_option autoImplicit false

namespace SceneScript

structure Host where
  environment : Environment
  files : Asset.Files
  service : Option Service
  notices : List Notice
  /-- The figures that a fixed loader was asked for. -/
  asked : List String

/-- What is done on a host. -/
abbrev Hosted (β : Type) := StateM Host β

namespace Host

/-- A host with nothing done on it yet. -/
def start (environment : Environment) (files : Asset.Files) : Host :=
  ⟨environment, files, none, [], []⟩

/-- Keep notices. -/
def tell (notices : List Notice) : Hosted Unit :=
  modify fun host => { host with notices := host.notices ++ notices }

/-- The settings in the environment. -/
def readSettings : Hosted Settings := do
  let (settings, notices) := Settings.ofEnvironment (← get).environment
  tell (notices.map .settings)
  return settings

/-- The service, made now if there is none. -/
def theService : Hosted Service := do
  match (← get).service with
  | some s => return s
  | none =>
    let s := Service.ofSettings (← readSettings)
    modify fun host => { host with service := some s }
    return s

/-- The result of something with notices. -/
def told {β : Type} (result : β × List Notice) : Hosted β := do
  tell result.2
  return result.1

/-- The commands of a script. -/
def parse {α : Type} [WrittenScalar α] (factor : Vec2 α) (text : String) :
    Hosted (List (Command α)) :=
  told (Service.parse factor text)

/-- The reconciled commands. -/
def reconcile {α : Type} [Scalar α] (commands : List (Command α)) :
    Hosted (Except PayloadError (Reconciled α)) :=
  let (result, notices) := Reconciliation.run [] commands
  told (result, notices.map .reconciliation)

/-- The names that files hold for a figure. -/
def loadMetadata (α : Type) [WrittenScalar α] (gameFolder : Option String) (path : String) :
    Hosted Asset.Metadata := do
  let read := (← get).files.readText
  let (names, notices) := Asset.loadMetadata α read gameFolder path
  told (names, notices.map .asset)

/-- What a figure can do. The loader is asked only for figures that move. -/
def figureMetadata (α : Type) [WrittenScalar α] (s : Service) (path : String) :
    Hosted Asset.Metadata := do
  if !(Asset.category path).isLive2d then return Asset.Metadata.none
  match s.loader with
  | .folder gameFolder => loadMetadata α gameFolder path
  | .fixed names =>
    modify fun host => { host with asked := host.asked ++ [path] }
    return names

end Host
end SceneScript
