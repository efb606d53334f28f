import TypedConfig.Construct.Blueprint
import TypedConfig.Value.Equality

/-!
# Collection types

Maps and lists, and builders of arrays: sets, intersections, unions, single items and samples.
-/

namespace TypedConfig.Construct.Builtin

/-- The kind of arrays of anything. -/
def anyArray : Kind := .array .any

/-- A map from keys to values, filled by named arguments. -/
def hashMap : Blueprint where
  typeId := TypeId.map
  State := Entries Value
  factories := [⟨[], return []⟩, ⟨[.object "Map"], Arguments.entries⟩]
  put := some .any
  inject target v entries := .ok (Entries.insert target.key v entries)
  finish entries := Build.object (.map entries)

/-- The items of a list, with each value only where it occurs first; `kept` has the values before
them. -/
def distinctFrom (kept : List Value) : List Value → List Value
  | [] => kept
  | v :: vs => distinctFrom (if v.isIn kept then kept else kept ++ [v]) vs

/-- The items of an array without repetitions. -/
def setBuilder : Blueprint where
  typeId := "omni.collections.Set"
  State := Kind × List Value
  factories := [⟨[anyArray], Arguments.array⟩]
  finish state := return .array state.1 (distinctFrom [] state.2)

/-- The items of an array as a list object. -/
def arrayToList : Blueprint where
  typeId := "omni.collections.ArrayToList"
  State := Kind × List Value
  factories := [⟨[anyArray], Arguments.array⟩]
  finish state := Build.object (.list state.2)

/-- The arrays that are the items of an array, the first one at `index`. -/
def nestedFrom (index : Nat) : List Value → Except Fault (List (Kind × List Value))
  | [] => .ok []
  | .array element items :: vs => do
    let rest ← nestedFrom (index + 1) vs
    return (element, items) :: rest
  | _ :: _ => .error (.itemNotArray index)

/-- The first of the arrays that are the items of an array, and the others; there has to be one. -/
def nestedArrays (items : List Value) :
    Except Fault ((Kind × List Value) × List (Kind × List Value)) := do
  match ← nestedFrom 0 items with
  | [] => .error .noArrays
  | first :: rest => .ok (first, rest)

/-- The items of the first array that every other array has. -/
def commonItems (first : List Value) (others : List (Kind × List Value)) : List Value :=
  first.filter fun v => others.all fun other => v.isIn other.2

/-- The items that several arrays share. -/
def intersection : Blueprint where
  typeId := "omni.collections.Intersection"
  State := Kind × List Value
  factories := [⟨[.array anyArray], Arguments.array⟩]
  finish state :=
    match nestedArrays state.2 with
    | .error fault => Build.fail "omni.collections.Intersection" fault
    | .ok (first, rest) => return .array first.1 (commonItems first.2 rest)

/-- The items of several arrays without repetitions. -/
def union : Blueprint where
  typeId := "omni.collections.Union"
  State := Kind × List Value
  factories := [⟨[.array anyArray], Arguments.array⟩]
  finish state :=
    match nestedArrays state.2 with
    | .error fault => Build.fail "omni.collections.Union" fault
    | .ok (first, rest) =>
      return .array first.1 ((first :: rest).foldl (fun kept array => distinctFrom kept array.2) [])

/-- The item at an index; the first one has the index zero. -/
def itemAt (items : List Value) (index : Int) : Except Fault Value :=
  if index < 0 then .error (.indexOutOfBounds index items.length)
  else
    match items[index.toNat]? with
    | some v => .ok v
    | none => .error (.indexOutOfBounds index items.length)

/-- One item of an array. -/
def selectItem : Blueprint where
  typeId := "omni.collections.SelectArrayItemByIndex"
  State := List Value × Int
  factories := [⟨[anyArray, .int], do
    let array ← Arguments.array
    return (array.2, (← Arguments.int).toInt)⟩]
  finish state :=
    match itemAt state.1 state.2 with
    | .ok v => return v
    | .error fault => Build.fail "omni.collections.SelectArrayItemByIndex" fault

/-- What a sample is drawn from, its size, and the seed of the draw, if there is one. -/
structure Sample where
  element : Kind
  items : List Value
  size : Int
  seed : Option Int64 := none

/-- Goes through the items after the first ones of a sample. The item at an index takes a place up
to that index, which the generator chooses, if the place lies in the sample. -/
def drawFrom (generator : Generator) (requests : List Nat) (sample : List Value) (index : Nat) :
    List Value → List Value
  | [] => sample
  | v :: vs =>
    let requests := index :: requests
    drawFrom generator requests (sample.set (generator requests) v) (index + 1) vs

/-- A generator for a draw. Without a seed it is one that the machine has at hand. -/
def generatorOf (libraries : Libraries) : Option Int64 → Build Generator
  | some seed => return libraries.seeded seed.toUInt64
  | none => do
    let (generator, m) := (← get).takeGenerator
    set m
    return generator

/-- A random sample of the items of an array. A sample of all items keeps their order. -/
def drawSample (libraries : Libraries) : Blueprint where
  typeId := "omni.collections.DrawSample"
  State := Sample
  factories := [⟨[anyArray, .int], do
    let (element, items) ← Arguments.array
    return { element, items, size := (← Arguments.int).toInt : Sample }⟩]
  setters := [⟨"seed", .long⟩]
  inject target v state :=
    match target, v.long? with
    | _, some seed => .ok { state with seed := some seed }
    | _, none => .error (.unusable v.kind)
  finish state :=
    if state.size < 0 ∨ (state.items.length : Int) < state.size then
      Build.fail "omni.collections.DrawSample" (.sampleTooLarge state.size state.items.length)
    else do
      let size := state.size.toNat
      let generator ← generatorOf libraries state.seed
      return .array state.element
        (drawFrom generator [] (state.items.take size) size (state.items.drop size))

end TypedConfig.Construct.Builtin
