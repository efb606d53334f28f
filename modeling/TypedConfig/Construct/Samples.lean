import TypedConfig.Construct.Standard

/-!
# Sample types

Types that exercise every way on which a construction can go: slots of all three sorts, factories
that overlap, factories that misread their arguments, and failures at every step.
-/

namespace TypedConfig.Construct.Samples

/-- Texts and a number, each of them unset at first. -/
structure Bean where
  x : Option String := none
  a : Option String := none
  b : Option String := none
  c : Option String := none
  d : Option Int := none

/-- A bean with its parts; an unset part is a dash. -/
def Bean.text (s : Bean) : String :=
  let part (v : Option String) : String := v.getD "-"
  "Bean(x=" ++ part s.x ++ ",a=" ++ part s.a ++ ",b=" ++ part s.b ++ ",c=" ++ part s.c ++ ",d=" ++
    part (s.d.map toString) ++ ")"

/-- A bean, with setters and fields; its setter `d` stores the same number for every text. -/
def bean : Blueprint where
  typeId := "test.Bean"
  State := Bean
  factories := [⟨[], return {}⟩, ⟨[.string], do return { x := some (← Arguments.string) : Bean }⟩]
  setters := [⟨"a", .string⟩, ⟨"b", .string⟩, ⟨"d", .string⟩]
  fields := [⟨"c", .string⟩, ⟨"d", .long⟩]
  inject target v s :=
    match target, v with
    | .setter "a", .string t => .ok { s with a := some t }
    | .setter "b", .string t => .ok { s with b := some t }
    | .setter _, .string _ => .ok { s with d := some (-1) }
    | .field "c", .string t => .ok { s with c := some t }
    | .field _, .long n => .ok { s with d := some n.toInt }
    | _, v => .error (.unusable v.kind)
  finish s := Build.object (.custom ⟨"test.Bean", [], s.text, notNull "a" s.a⟩)

/-- Keeps every entry it is handed, in order, and notes that it has been initialised. -/
def bag : Blueprint where
  typeId := "test.Bag"
  State := Bool × List (String × Value)
  factories := [⟨[], return (false, [])⟩]
  put := some .long
  inject target v s := .ok (s.1, s.2 ++ [(target.key, v)])
  init s := .ok (true, s.2)
  finish s := return .string ((if s.1 then "true" else "false") ++ ":" ++
    ",".intercalate (s.2.map fun (key, v) => key ++ ":" ++ v.kind.text ++ "=" ++ v.text))

/-- Has factories that accept the same arguments, and tells which one was called. -/
def vague : Blueprint where
  typeId := "test.Vague"
  State := String
  factories := [⟨[.any], return "any"⟩, ⟨[.string], return "str"⟩,
    ⟨[.double, .any], return "double,any"⟩, ⟨[.any, .long], return "any,long"⟩,
    ⟨[.float, .int], return "float,int"⟩]
  finish s := return .string s

/-- Yields its argument as it was coerced. -/
def wide : Blueprint where
  typeId := "test.Wide"
  State := Value
  factories := [⟨[.long], Arguments.any⟩, ⟨[.double], Arguments.any⟩,
    ⟨[.array .long], Arguments.any⟩, ⟨[.array (.array .double)], Arguments.any⟩]
  finish v := return v

/-- The object of a pool: it calls itself a map but is none. -/
def poolObject (size : Int) (name : String) : Content :=
  .custom ⟨"test.Pool", ["Sized", "Map"], "Pool(" ++ toString size ++ "," ++ name ++ ")",
    atLeast "size" size 1 ++ notEmpty "name" (name == "")⟩

/-- A size and a name, both of which have to be there. -/
def pool : Blueprint where
  typeId := "test.Pool"
  State := Int × String
  factories := [⟨[.long, .string], do
    let size ← Arguments.long
    return (size.toInt, ← Arguments.string)⟩]
  finish s := Build.object (poolObject s.1 s.2)

/-- Fails at the step that its argument names. -/
def fragile : Blueprint where
  typeId := "test.Fragile"
  State := String
  factories := [⟨[.string], do
    let mode ← Arguments.string
    if mode = "create" then throw (.custom "broken create" none) else return mode⟩]
  setters := [⟨"slot", .any⟩]
  init mode :=
    if mode = "init" then .error (.custom "broken init" (some "init cause")) else .ok mode
  finish mode :=
    if mode = "finish" then Build.fail "test.Fragile" (.custom "broken finish" none)
    else if mode = "invalid" then Build.object (poolObject (-3) "")
    else return .bool true

/-- Reads an argument in the form that a text names. -/
def readAs (form : String) : Arguments Unit :=
  match form with
  | "int" => do let _ ← Arguments.int
  | "long" => do let _ ← Arguments.long
  | "double" => do let _ ← Arguments.double
  | "bool" => do let _ ← Arguments.bool
  | "array" => do let _ ← Arguments.array
  | "strings" => do let _ ← Arguments.strings
  | "map" => do let _ ← Arguments.entries
  | "object" => do let _ ← Arguments.content
  | _ => do let _ ← Arguments.string

/-- Reads more arguments than it asks for, or reads them in other forms. -/
def greedy : Blueprint where
  typeId := "test.Greedy"
  State := Unit
  factories := [
    ⟨[.string], do
      let _ ← Arguments.string
      let _ ← Arguments.string⟩,
    ⟨[.string, .any], do readAs (← Arguments.string)⟩]
  finish _ := return .string "greedy"

/-- All sample types. -/
def all : List Blueprint := [bean, bag, vague, wide, pool, fragile, greedy]

/-- The short names of the sample types. -/
def shortcuts (table : Shortcuts) : Shortcuts :=
  Entries.insertAll [("Bean", "test.Bean"), ("Bag", "test.Bag"), ("Vague", "test.Vague"),
    ("Wide", "test.Wide"), ("Pool", "test.Pool"), ("Fragile", "test.Fragile"),
    ("Greedy", "test.Greedy")] table

/-- The standard types and the sample types. -/
def registry (table : Shortcuts) : Registry := Registry.ofList (Builtin.all .own ++ all) table

end TypedConfig.Construct.Samples
