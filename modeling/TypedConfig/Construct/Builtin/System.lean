import TypedConfig.Construct.Blueprint

/-!
# Types for the network, time and the system

URLs, socket addresses, time zones, the environment and the name of the operating system.
-/

namespace TypedConfig.Construct.Builtin

/-- A URL in its normal form. -/
def url (libraries : Libraries) : Blueprint where
  typeId := TypeId.url
  State := ParsedUrl
  factories := [⟨[.string], do
    let text ← Arguments.string
    match libraries.url text with
    | .ok url => return url
    | .error e => throw (.notUrl text e)⟩]
  finish state := Build.object (.url state.text)

/-- A host and a port. -/
def socketAddress : Blueprint where
  typeId := TypeId.socket
  State := String × Nat
  factories := [⟨[.string, .int], do
    let host ← Arguments.string
    let port := (← Arguments.int).toInt
    if port < 0 ∨ 65535 < port then throw (.portOutOfRange port)
    else return (host, port.toNat)⟩]
  finish state := Build.object (.socket state.1 state.2)

/-- A time zone, under its name. -/
def timeZone (libraries : Libraries) : Blueprint where
  typeId := TypeId.timeZone
  State := String
  factories := [⟨[.string], do
    let id ← Arguments.string
    match libraries.zone? id with
    | some name => return name
    | none => throw (.notTimeZone id)⟩]
  finish name := Build.object (.timeZone name)

/-- The variables of an environment in whose names a regular expression has a match. -/
def selectVariables (environment : Entries String) : Option Regex → Entries Value
  | none => environment.map fun (name, text) => (name, .string text)
  | some regex =>
    (environment.filter fun (name, _) => (regex.first? name.toList).isSome).map
      fun (name, text) => (name, .string text)

/-- The variables of the environment as a map, all of them or those whose whole names match a
regular expression. -/
def environment (libraries : Libraries) : Blueprint where
  typeId := "omni.sys.Environment"
  State := Option String
  factories := [⟨[], return none⟩, ⟨[.string], do return some (← Arguments.string)⟩]
  finish filter := do
    match filter with
    | none => Build.object (.map (selectVariables (← get).environment none))
    | some text =>
      match libraries.regex ("^(?:" ++ text ++ ")$") with
      | .ok regex => Build.object (.map (selectVariables (← get).environment (some regex)))
      | .error cause => Build.fail "omni.sys.Environment" (.badFilter text cause)

/-- The name of the operating system. -/
def os : Blueprint where
  typeId := "omni.sys.Os"
  State := Unit
  factories := [⟨[], return ()⟩]
  finish _ := return .string "linux"

end TypedConfig.Construct.Builtin
