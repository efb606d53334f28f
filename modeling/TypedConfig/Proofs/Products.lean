import TypedConfig.Proofs.Coercions
import TypedConfig.Proofs.Building

/-!
# What a type makes of its arguments

A construction without named arguments has one result on all machines if neither its factory nor its
last step looks at the machine. That result is the value that the type makes of the arguments, which
the validator may still refuse, or the error with which the type refuses them.
-/

namespace TypedConfig.Construct

/-- A value as it leaves the validator. -/
def judged (validator : Validator) (v : Value) : Except ConstructError Value :=
  match validator v with
  | none => .ok v
  | some e => .error (.validation e)

namespace Registry

/-- A type makes a value of some arguments: every construction with them comes to what the validator
says of the value, and leaves the machine as it is. -/
def Produces (r : Registry) (type : String) (arguments : List Value) (v : Value) : Prop :=
  ∀ validator m, outcome ((⟨r, validator⟩ : Engine).build type arguments []) m =
    (judged validator v, m)

/-- A type refuses some arguments: every construction with them fails. -/
def Refuses (r : Registry) (type : String) (arguments : List Value) (e : ConstructError) : Prop :=
  ∀ validator m, outcome ((⟨r, validator⟩ : Engine).build type arguments []) m = (.error e, m)

variable {r : Registry} {type : String} {b : Blueprint} {arguments : List Value}

/-- A type that refuses its arguments refuses the construction. -/
theorem refuses_of_create {e : ConstructError} (hlookup : r.lookup type = .ok b)
    (hcreate : create b arguments = .error e) : r.Refuses type arguments e := by
  intro validator m
  simp only [Engine.build, Engine.construct, hlookup, hcreate]
  rfl

section

variable {state : b.State} (hlookup : r.lookup type = .ok b)
  (hcreate : create b arguments = .ok ⟨b, state⟩)

include hlookup hcreate

/-- A construction without named arguments goes from its factory to the last steps. -/
theorem build_of_create (validator : Validator) :
    (⟨r, validator⟩ : Engine).build type arguments [] =
      Instance.finalize ⟨b, state⟩ validator := by
  simp only [Engine.build, Engine.construct, hlookup, hcreate, Instance.inject]

variable (hinit : b.init state = .ok state)

include hinit

/-- A type that finishes produces the value. -/
theorem produces_of_finish {v : Value} (hfinish : b.finish state = pure v) :
    r.Produces type arguments v := by
  intro validator m
  rw [build_of_create hlookup hcreate]
  simp only [Instance.finalize, hinit, hfinish, pure_bind, judged]
  cases validator v <;> rfl

/-- A type that cannot finish refuses the construction. -/
theorem refuses_of_finish {e : ConstructError} (hfinish : b.finish state = throw e) :
    r.Refuses type arguments e := by
  intro validator m
  rw [build_of_create hlookup hcreate]
  simp only [Instance.finalize, hinit, hfinish]
  rfl

end

end Registry

/-- A type that is made from one array only. -/
def arrayBuilder (typeId : String) (parameter : Kind) (finish : Kind × List Value → Build Value) :
    Blueprint where
  typeId := typeId
  State := Kind × List Value
  factories := [⟨[parameter], Arguments.array⟩]
  finish := finish

section

variable {typeId : String} {parameter element : Kind} {items : List Value}
  {finish : Kind × List Value → Build Value} {v : Value}

/-- An array of the right kind is what an array builder begins with. -/
theorem create_arrayBuilder (h : parameter.coerce v = some (.array element items)) :
    create (arrayBuilder typeId parameter finish) [v] =
      .ok ⟨arrayBuilder typeId parameter finish, (element, items)⟩ := by
  simp [create, arrayBuilder, acceptsAll, coerceAll, Kind.accepts_of_coerce h, h]
  rfl

/-- An array builder has no factory for anything else. -/
theorem create_arrayBuilder_of_not_accepts (h : parameter.accepts v = false) :
    create (arrayBuilder typeId parameter finish) [v] = .error (.noFactory typeId [v.kind]) := by
  simp [create, arrayBuilder, acceptsAll, h]

end

end TypedConfig.Construct
