import TypedConfig.Construct.Standard
import TypedConfig.Proofs.Guards

/-!
# The built-in types are guarded

Each built-in type reads its arguments as the kinds of its parameters say, and uses what its slots
are handed. Only the directory of a command is handed values of every kind and can use two of them.
So whatever the arguments of a construction are, as long as the objects among them are of the
built-in types, it does not fail because the declared kinds and the code disagree.
-/

namespace TypedConfig.Construct

namespace Build

/-- To look at the machine does not fail. -/
theorem get_throws (P : ConstructError → Prop) : Throws P (get : Build Machine) := by
  intro m e h
  simp at h

/-- To change the machine does not fail. -/
theorem set_throws (P : ConstructError → Prop) (m : Machine) :
    Throws P (set m : Build PUnit) := by
  intro m' e h
  simp at h

/-- A type that refuses with a fault of its own does not fail internally. -/
theorem fail_throws {α : Type} {type : String} {fault : Fault} (h : fault.isInternal = false) :
    Throws (·.isInternal = false) (fail type fault : Build α) :=
  .throw h

/-- To make an object does not fail. -/
theorem object_throws (P : ConstructError → Prop) (content : Content) :
    Throws P (object content) :=
  .bind (get_throws P) fun _ => .bind (set_throws P _) fun _ => .pure _

end Build

/-- The parts of a type rely on no more than the kinds that it declares. -/
def Blueprint.IsGuarded (b : Blueprint) : Prop := ∃ Inv, b.Guarded Inv

/-- A type without slots is guarded by the kinds of its parameters. -/
theorem Blueprint.isGuarded_of_parameters {b : Blueprint} (Inv : b.State → Prop)
    (hslots : ∀ target, b.asks target = none) (hinit : b.init = .ok)
    (hapart : b.signatures.Pairwise (signaturesApart · · = true))
    (hcreate : ∀ f ∈ b.factories, Arguments.Takes f.parameters f.create Inv)
    (hfinish : ∀ state, Inv state → Throws (·.isInternal = false) (b.finish state)) :
    b.IsGuarded := by
  refine ⟨Inv, hapart, hcreate, ?_, ?_, fun {state} => hfinish state⟩
  · intro target kind w state hasks
    rw [hslots] at hasks
    cases hasks
  · intro state hstate
    rw [hinit]
    exact hstate

/-- A type with a single factory and no slots. -/
theorem Blueprint.isGuarded_of_factory (typeId : String) {State : Type} (Inv : State → Prop)
    {parameters : List Kind} {create : Arguments State} {finish : State → Build Value}
    (hcreate : Arguments.Takes parameters create Inv)
    (hfinish : ∀ state, Inv state → Throws (·.isInternal = false) (finish state)) :
    Blueprint.IsGuarded { typeId, State, factories := [⟨parameters, create⟩], finish } :=
  isGuarded_of_parameters Inv (fun target => by cases target <;> rfl) rfl
    (List.pairwise_singleton _ _) (List.forall_mem_singleton.mpr hcreate) hfinish

namespace Builtin

section Files

/-- A path is read as the text that the kind asks for. -/
theorem pathFactories_takes : ∀ f ∈ pathFactories,
    Arguments.Takes f.parameters f.create fun _ => True := by
  rintro f (_ | ⟨_, _ | ⟨_, _ | ⟨_, ⟨⟩⟩⟩⟩)
  · exact .string
  · exact .cons .file fun parent _ => .andThen .string fun child _ => .pure trivial
  · exact .cons .string fun parent _ => .andThen .string fun child _ => .pure trivial

/-- A path or a file is read as what the kind asks for. -/
theorem pathOrFileFactories_takes : ∀ f ∈ pathOrFileFactories,
    Arguments.Takes f.parameters f.create fun _ => True := by
  intro f hf
  rcases List.mem_append.mp hf with hpath | hfile
  · exact pathFactories_takes f hpath
  · obtain rfl := List.mem_singleton.mp hfile
    exact .file

/-- A file is made from its path. -/
theorem file_guarded : file.IsGuarded :=
  Blueprint.isGuarded_of_parameters (fun _ => True)
    (fun target => by cases target <;> rfl) rfl (by decide)
    pathFactories_takes fun path _ => Build.object_throws _ _

/-- A path without a canonical form is refused. -/
theorem canonicalFile_throws (type path : String) :
    Throws (·.isInternal = false) (canonicalFile type path) := by
  refine .bind (Build.get_throws _) fun m => ?_
  split
  · exact Build.object_throws _ _
  · exact Build.fail_throws rfl

/-- A file that has to exist is refused only if it does not. -/
theorem existingFile_guarded : existingFile.IsGuarded := by
  refine Blueprint.isGuarded_of_parameters (fun _ => True)
    (fun target => by cases target <;> rfl) rfl (by decide)
    pathOrFileFactories_takes fun path _ => .bind (Build.get_throws _) fun m => ?_
  split
  · exact canonicalFile_throws _ _
  · exact Build.fail_throws rfl

/-- A file that must not exist is refused only if it does. -/
theorem nonExistingFile_guarded : nonExistingFile.IsGuarded := by
  refine Blueprint.isGuarded_of_parameters (fun _ => True)
    (fun target => by cases target <;> rfl) rfl (by decide)
    pathOrFileFactories_takes fun path _ => .bind (Build.get_throws _) fun m => ?_
  dsimp only
  split
  · exact Build.fail_throws rfl
  · split
    · exact Build.object_throws _ _
    · exact Build.fail_throws rfl

/-- A directory that cannot be made is refused. -/
theorem forceDirectory_throws (path : String) :
    Throws (·.isInternal = false) (forceDirectory path) := by
  refine .bind (Build.get_throws _) fun m => ?_
  dsimp only
  split
  · exact .pure _
  · refine .bind (Build.set_throws _ _) fun _ => ?_
    split
    · exact .pure _
    · exact Build.fail_throws rfl

/-- A directory is refused only if it cannot be made. -/
theorem forcedDirectory_guarded : forcedDirectory.IsGuarded := by
  refine Blueprint.isGuarded_of_parameters (fun _ => True)
    (fun target => by cases target <;> rfl) rfl (by decide)
    pathFactories_takes fun path _ => ?_
  refine .bind (forceDirectory_throws path) fun _ => .bind (Build.get_throws _) fun m => ?_
  split
  · exact canonicalFile_throws _ _
  · exact Build.fail_throws rfl

/-- To make the objects of several files does not fail. -/
theorem fileObjects_throws (P : ConstructError → Prop) (paths : List String) :
    Throws P (fileObjects paths) := by
  induction paths with
  | nil => exact .pure _
  | cons path paths ih =>
    exact .bind (Build.object_throws _ _) fun v => .bind ih fun vs => .pure _

/-- The suffix that files of a directory must have is read as a text. -/
theorem filesInDirectory_guarded : filesInDirectory.Guarded fun _ => True where
  apart := by decide
  create := by
    intro f hf
    obtain ⟨g, hg, rfl⟩ := List.mem_map.mp hf
    exact .andThen (pathOrFileFactories_takes g hg) fun path _ => .pure trivial
  inject := by
    intro target kind w state hasks hw _
    cases target with
    | setter key =>
      have hslot := List.mem_singleton.mp (Blueprint.mem_of_slotKind? hasks)
      cases hslot
      obtain ⟨suffix, rfl⟩ := hw.string
      trivial
    | _ => cases hasks
  init := fun _ => trivial
  finish := by
    intro state _
    refine .bind (Build.get_throws _) fun m => ?_
    dsimp only
    split
    · exact Build.fail_throws rfl
    · split
      · exact Build.fail_throws rfl
      · split
        · exact Build.fail_throws rfl
        · exact .bind (fileObjects_throws _ _) fun files => .pure _

/-- A path is joined from texts. -/
theorem path_guarded : path.IsGuarded := by
  refine Blueprint.isGuarded_of_parameters (fun _ => True)
    (fun target => by cases target <;> rfl) rfl (by decide)
    ?_ fun path _ => Build.object_throws _ _
  rintro f (_ | ⟨_, _ | ⟨_, ⟨⟩⟩⟩)
  · exact .string
  · exact .andThen .strings fun parts _ => .pure trivial

/-- Files that cannot be read are refused as such. -/
theorem linesOfFiles_error {tree : File.Tree} {paths : List String} {fault : Fault}
    (h : linesOfFiles tree paths = .error fault) : fault.isInternal = false := by
  induction paths with
  | nil => cases h
  | cons path paths ih =>
    rw [linesOfFiles] at h
    split at h
    · cases h
      rfl
    · cases hrest : linesOfFiles tree paths with
      | error fault' =>
        rw [hrest] at h
        cases h
        exact ih hrest
      | ok lines =>
        rw [hrest] at h
        cases h

/-- Lines are read from the paths of files, or the files refused. -/
theorem stringArrayFromFile_guarded : stringArrayFromFile.IsGuarded := by
  refine Blueprint.isGuarded_of_parameters (fun _ => True)
    (fun target => by cases target <;> rfl) rfl (by decide)
    ?_ fun paths _ => .bind (Build.get_throws _) fun m => ?_
  · rintro f (_ | ⟨_, _ | ⟨_, _ | ⟨_, ⟨⟩⟩⟩⟩)
    · exact .andThen .file fun path _ => .pure trivial
    · exact .andThen .string fun path _ => .pure trivial
    · exact .andThen .array fun array _ => .pure trivial
  · split
    · exact .pure _
    next hlines => exact Build.fail_throws (linesOfFiles_error hlines)

/-- A resource is made from its name. -/
theorem resource_guarded : resource.IsGuarded :=
  Blueprint.isGuarded_of_factory _ (fun _ => True) .string fun _ _ => Build.object_throws _ _

end Files

section System

/-- A text that is no URL is refused, whatever the libraries answer. -/
theorem url_guarded (libraries : Libraries) : (url libraries).IsGuarded := by
  refine Blueprint.isGuarded_of_factory _ (fun _ => True) ?_ fun url _ => Build.object_throws _ _
  refine .andThen .string fun text _ => ?_
  split
  · exact .pure trivial
  · exact .throw rfl

/-- A port out of range is refused. -/
theorem socketAddress_guarded : socketAddress.IsGuarded := by
  refine Blueprint.isGuarded_of_factory _ (fun _ => True) ?_ fun address _ =>
    Build.object_throws _ _
  refine .cons .string fun host _ => .andThen .int fun port _ => ?_
  dsimp only
  split
  · exact .throw rfl
  · exact .pure trivial

/-- An unknown zone is refused, whatever the libraries answer. -/
theorem timeZone_guarded (libraries : Libraries) : (timeZone libraries).IsGuarded := by
  refine Blueprint.isGuarded_of_factory _ (fun _ => True) ?_ fun id _ => Build.object_throws _ _
  refine .andThen .string fun id _ => ?_
  split
  · exact .pure trivial
  · exact .throw rfl

/-- A filter that is no pattern is refused, whatever the libraries answer. -/
theorem environment_guarded (libraries : Libraries) : (environment libraries).IsGuarded := by
  have hapart : [[], [Kind.string]].Pairwise (signaturesApart · · = true) := by decide
  refine Blueprint.isGuarded_of_parameters (fun _ => True)
    (fun target => by cases target <;> rfl) rfl hapart ?_ fun filter _ => ?_
  · rintro f (_ | ⟨_, _ | ⟨_, ⟨⟩⟩⟩)
    · exact .pure trivial
    · exact .andThen .string fun text _ => .pure trivial
  · cases filter with
    | none => exact .bind (Build.get_throws _) fun m => Build.object_throws _ _
    | some text =>
      dsimp only [environment]
      split
      · exact .bind (Build.get_throws _) fun m => Build.object_throws _ _
      · exact Build.fail_throws rfl

/-- The name of the system needs no argument. -/
theorem os_guarded : os.IsGuarded :=
  Blueprint.isGuarded_of_factory _ (fun _ => True) (.pure trivial) fun _ _ => .pure _

end System

section Collections

/-- A map takes entries of every kind. -/
theorem hashMap_guarded : hashMap.Guarded fun _ => True where
  apart := by decide
  create := by
    rintro f (_ | ⟨_, _ | ⟨_, ⟨⟩⟩⟩)
    · exact .pure trivial
    · exact .entries
  inject := fun _ _ _ => trivial
  init := fun _ => trivial
  finish := fun _ => Build.object_throws _ _

/-- A set is made of the items of an array. -/
theorem setBuilder_guarded : setBuilder.IsGuarded :=
  Blueprint.isGuarded_of_factory _ _ .array fun _ _ => .pure _

/-- A list is made of the items of an array. -/
theorem arrayToList_guarded : arrayToList.IsGuarded :=
  Blueprint.isGuarded_of_factory _ _ .array fun _ _ => Build.object_throws _ _

/-- Items that are arrays can be taken as such. -/
theorem nestedArrays_error {items : List Value} {fault : Fault}
    (hitems : ∀ v ∈ items, anyArray.accepts v = true) (h : nestedArrays items = .error fault) :
    fault.isInternal = false := by
  have hnested (index : Nat) : ∃ arrays, nestedFrom index items = .ok arrays := by
    clear h
    induction items generalizing index with
    | nil => exact ⟨[], rfl⟩
    | cons v items ih =>
      obtain ⟨arrays, harrays⟩ := ih (fun v hv => hitems v (.tail _ hv)) (index + 1)
      have haccepts := hitems v (.head _)
      cases v with
      | array element vs =>
        refine ⟨(element, vs) :: arrays, ?_⟩
        rw [nestedFrom, harrays]
        rfl
      | _ => cases haccepts
  obtain ⟨arrays, harrays⟩ := hnested 0
  unfold nestedArrays at h
  rw [harrays] at h
  cases arrays with
  | nil =>
    cases h
    rfl
  | cons => cases h

/-- An intersection needs the items of arrays only. -/
theorem intersection_guarded : intersection.IsGuarded := by
  refine Blueprint.isGuarded_of_factory _ _ .array fun array harray => ?_
  split
  next hnested => exact Build.fail_throws (nestedArrays_error harray hnested)
  next => exact .pure _

/-- A union needs the items of arrays only. -/
theorem union_guarded : union.IsGuarded := by
  refine Blueprint.isGuarded_of_factory _ _ .array fun array harray => ?_
  split
  next hnested => exact Build.fail_throws (nestedArrays_error harray hnested)
  next => exact .pure _

/-- An index without an item is refused as such. -/
theorem itemAt_error {items : List Value} {index : Int} {fault : Fault}
    (h : itemAt items index = .error fault) : fault.isInternal = false := by
  unfold itemAt at h
  split at h
  · cases h
    rfl
  · split at h
    · cases h
    · cases h
      rfl

/-- An item is picked or its index refused. -/
theorem selectItem_guarded : selectItem.IsGuarded := by
  refine Blueprint.isGuarded_of_factory _ (fun _ => True) ?_ fun state _ => ?_
  · exact .cons .array fun array _ => .andThen .int fun index _ => .pure trivial
  · split
    · exact .pure _
    next hitem => exact Build.fail_throws (itemAt_error hitem)

/-- Neither a seed nor the machine refuses a generator. -/
theorem generatorOf_throws (P : ConstructError → Prop) (libraries : Libraries)
    (seed : Option Int64) : Throws P (generatorOf libraries seed) := by
  cases seed with
  | some seed => exact .pure _
  | none => exact .bind (Build.get_throws P) fun _ => .bind (Build.set_throws P _) fun _ => .pure _

/-- A sample is drawn or found too large, whatever the generator draws. -/
theorem drawSample_guarded (libraries : Libraries) :
    (drawSample libraries).Guarded fun _ => True where
  apart := List.pairwise_singleton _ _
  create := by
    intro f hf
    obtain rfl := List.mem_singleton.mp hf
    exact .cons .array fun array _ => .andThen .int fun size _ => .pure trivial
  inject := by
    intro target kind w state hasks hw _
    cases target with
    | setter key =>
      have hslot := List.mem_singleton.mp (Blueprint.mem_of_slotKind? hasks)
      cases hslot
      obtain ⟨seed, hseed⟩ := hw.long
      simp [drawSample, hseed]
    | _ => cases hasks
  init := fun _ => trivial
  finish := by
    intro sample _
    change Throws _ (if _ then _ else _)
    split
    · exact Build.fail_throws rfl
    · exact .bind (generatorOf_throws _ libraries _) fun _ => .pure _

end Collections

section Texts

/-- A delimiter that is no pattern is refused, whatever the libraries answer. -/
theorem stringSplitter_guarded (libraries : Libraries) : (stringSplitter libraries).IsGuarded := by
  have hapart : [[Kind.string], [.string, .bool], [.string, .string],
      [.string, .string, .bool]].Pairwise (signaturesApart · · = true) := by decide
  refine Blueprint.isGuarded_of_parameters (fun _ => True)
    (fun target => by cases target <;> rfl) rfl hapart ?_ fun state _ => ?_
  · rintro f (_ | ⟨_, _ | ⟨_, _ | ⟨_, _ | ⟨_, ⟨⟩⟩⟩⟩⟩)
    · exact .andThen .string fun input _ => .pure trivial
    · exact .cons .string fun input _ => .andThen .bool fun trimmed _ => .pure trivial
    · exact .cons .string fun input _ => .andThen .string fun delimiter _ => .pure trivial
    · exact .cons .string fun input _ => .cons .string fun delimiter _ =>
        .andThen .bool fun trimmed _ => .pure trivial
  · dsimp only [stringSplitter]
    split
    · exact .pure _
    · exact Build.fail_throws rfl

/-- A list is read as its texts, or refused if it has other items. -/
theorem listStrings_takes : Arguments.Takes [.object TypeId.list] listStrings fun _ => True := by
  refine .andThen .content fun content _ => ?_
  split
  · split
    · exact .pure trivial
    · exact .throw rfl
  · exact .throw rfl

/-- Texts are joined or the list is refused. -/
theorem joinStrings_guarded : joinStrings.IsGuarded := by
  refine Blueprint.isGuarded_of_parameters (fun _ => True)
    (fun target => by cases target <;> rfl) rfl (by decide)
    ?_ fun state _ => ?_
  · rintro f (_ | ⟨_, _ | ⟨_, _ | ⟨_, ⟨⟩⟩⟩⟩)
    · exact .cons .strings fun strings _ => .andThen .string fun delimiter _ => .pure trivial
    · exact .cons .strings fun strings _ => .cons .string fun delimiter _ =>
        .cons .string fun quote _ => .andThen .string fun escape _ => .pure trivial
    · exact .cons listStrings_takes fun strings _ => .andThen .string fun delimiter _ =>
        .pure trivial
  · change Throws _ (if state.violations.isEmpty then pure (Value.string state.text) else _)
    split
    · exact .pure _
    · exact .throw rfl

/-- Texts are extended without a fault. -/
theorem modifyStringArray_guarded : modifyStringArray.IsGuarded := by
  refine Blueprint.isGuarded_of_factory _ (fun _ => True) ?_ fun strings _ => .pure _
  exact .cons .strings fun strings _ => .cons .string fun before _ =>
    .andThen .string fun after _ => .pure trivial

end Texts

section Runnables

/-- The directory of a command is the one slot that is handed values which it cannot use. -/
theorem shellExecutor_guarded : shellExecutor.Guarded fun _ => True where
  apart := by decide
  create := by
    rintro f (_ | ⟨_, _ | ⟨_, ⟨⟩⟩⟩)
    · exact .andThen .string fun line _ => .pure trivial
    · exact .cons .string fun program _ => .andThen .strings fun arguments _ => .pure trivial
  inject := by
    intro target kind w state hasks _ _
    cases target with
    | setter key =>
      have hslot := List.mem_singleton.mp (Blueprint.mem_of_slotKind? hasks)
      cases hslot
      dsimp only [shellExecutor]
      split
      · trivial
      next fault hfault =>
        split at hfault
        · cases hfault
        · cases hfault
        · cases hfault
          rfl
    | _ => cases hasks
  init := fun _ => trivial
  finish := fun _ => Build.object_throws _ _

/-- The slots of a parallel run use the values of their kinds. -/
theorem parallelRunnable_guarded : parallelRunnable.Guarded fun _ => True where
  apart := by decide
  create := by
    intro f hf
    obtain rfl := List.mem_singleton.mp hf
    exact .pure trivial
  inject := by
    intro target kind w run hasks hw _
    cases target with
    | setter key =>
      have hslot := Blueprint.mem_of_slotKind? hasks
      simp only [parallelRunnable, List.mem_cons, List.not_mem_nil, or_false,
        Slot.mk.injEq] at hslot
      rcases hslot with ⟨rfl, rfl⟩ | ⟨rfl, rfl⟩ | ⟨rfl, rfl⟩ | ⟨rfl, rfl⟩
      · obtain ⟨id, path, rfl⟩ := hw.file
        trivial
      · obtain ⟨element, items, rfl, _⟩ := hw.array
        trivial
      · obtain ⟨name, rfl⟩ := hw.string
        trivial
      · obtain ⟨n, rfl⟩ := hw.int
        trivial
    | field key => cases hasks
    | put key => trivial
  init := fun _ => trivial
  finish := fun _ => .bind (Build.get_throws _) fun _ => Build.object_throws _ _

end Runnables

/-- Every built-in type is guarded. -/
theorem isGuarded_of_mem {libraries : Libraries} {b : Blueprint} (h : b ∈ all libraries) :
    b.IsGuarded := by
  simp only [all, List.mem_cons, List.not_mem_nil, or_false] at h
  rcases h with rfl | rfl | rfl | rfl | rfl | rfl | rfl | rfl | rfl | rfl | rfl | rfl | rfl | rfl |
    rfl | rfl | rfl | rfl | rfl | rfl | rfl | rfl | rfl | rfl | rfl
  · exact file_guarded
  · exact existingFile_guarded
  · exact nonExistingFile_guarded
  · exact forcedDirectory_guarded
  · exact ⟨_, filesInDirectory_guarded⟩
  · exact path_guarded
  · exact stringArrayFromFile_guarded
  · exact resource_guarded
  · exact url_guarded _
  · exact socketAddress_guarded
  · exact timeZone_guarded _
  · exact ⟨_, hashMap_guarded⟩
  · exact setBuilder_guarded
  · exact arrayToList_guarded
  · exact intersection_guarded
  · exact union_guarded
  · exact selectItem_guarded
  · exact ⟨_, drawSample_guarded _⟩
  · exact stringSplitter_guarded _
  · exact joinStrings_guarded
  · exact modifyStringArray_guarded
  · exact environment_guarded _
  · exact os_guarded
  · exact ⟨_, shellExecutor_guarded⟩
  · exact ⟨_, parallelRunnable_guarded⟩

end Builtin

section Messages

/-- The beginnings of the messages of faults that are not internal. -/
def Fault.openings : List String := ["file '", "cannot resolve '", "cannot make path absolute",
  "unable to create '", "'", "directory '", "cannot list '", "cannot read '", "port out of range: ",
  "no arrays given", "index ", "cannot draw ", "invalid delimiter pattern '", "invalid filter '",
  "list items must be strings"]

/-- The beginnings of messages that say that arguments have been misread. -/
def Fault.internalOpenings : List String := ["argument coercion failed",
  "factory read more arguments than given", "factory cannot use an argument of kind ",
  "no factory #", "item "]

/-- The message of a fault that is not internal begins with one of the openings. -/
theorem Fault.message_opening {fault : Fault} (h : fault.isInternal = false) :
    ∃ opening ∈ openings, ∃ rest, fault.message = opening ++ rest := by
  have hwhole (text : String) : text = text ++ "" := (String.append_empty).symm
  cases fault with
  | fileMissing path => exact ⟨"file '", by simp [openings], _, String.append_assoc⟩
  | fileExists path => exact ⟨"file '", by simp [openings], _, String.append_assoc⟩
  | unresolved path cause => exact ⟨"cannot resolve '", by simp [openings], _, String.append_assoc⟩
  | notAbsolute cause => exact ⟨"cannot make path absolute", by simp [openings], _, hwhole _⟩
  | notCreated path cause =>
    exact ⟨"unable to create '", by simp [openings], _, String.append_assoc⟩
  | notDirectory path => exact ⟨"'", by simp [openings], _, String.append_assoc⟩
  | directoryMissing path => exact ⟨"directory '", by simp [openings], _, String.append_assoc⟩
  | notListed path cause => exact ⟨"cannot list '", by simp [openings], _, String.append_assoc⟩
  | unreadable path cause => exact ⟨"cannot read '", by simp [openings], _, String.append_assoc⟩
  | notUrl text cause => exact ⟨"'", by simp [openings], _, String.append_assoc⟩
  | portOutOfRange port => exact ⟨"port out of range: ", by simp [openings], _, rfl⟩
  | notTimeZone id => exact ⟨"'", by simp [openings], _, String.append_assoc⟩
  | noArrays => exact ⟨"no arrays given", by simp [openings], _, hwhole _⟩
  | indexOutOfBounds index length =>
    refine ⟨"index ", by simp [openings],
      toString index ++ (" out of bounds for array of length " ++ toString length), ?_⟩
    rw [← String.append_assoc, ← String.append_assoc]
    rfl
  | sampleTooLarge size length =>
    refine ⟨"cannot draw ", by simp [openings],
      toString size ++ (" items from an array of length " ++ toString length), ?_⟩
    rw [← String.append_assoc, ← String.append_assoc]
    rfl
  | badDelimiter pattern cause =>
    exact ⟨"invalid delimiter pattern '", by simp [openings], _, String.append_assoc⟩
  | badFilter pattern cause =>
    exact ⟨"invalid filter '", by simp [openings], _, String.append_assoc⟩
  | listNotStrings => exact ⟨"list items must be strings", by simp [openings], _, hwhole _⟩
  | _ => cases h

/-- Texts that begin alike have beginnings of which one begins the other. -/
theorem prefix_or_prefix_of_append_eq {s t u v : String} (h : s ++ u = t ++ v) :
    s.toList <+: t.toList ∨ t.toList <+: s.toList := by
  have hlists : s.toList ++ u.toList = t.toList ++ v.toList := by
    rw [← String.toList_append, ← String.toList_append, h]
  exact List.prefix_or_prefix_of_prefix (List.prefix_append _ _)
    (hlists ▸ List.prefix_append t.toList v.toList)

/-- Only the message of an internal fault says that arguments have been misread. -/
theorem Fault.message_ne_of_not_internal {fault : Fault} (h : fault.isInternal = false)
    {text : String} (htext : text ∈ internalOpenings) (rest : String) :
    fault.message ≠ text ++ rest := by
  obtain ⟨opening, hopening, _, hmessage⟩ := message_opening h
  have hapart : ∀ opening ∈ openings, ∀ text ∈ internalOpenings,
      ¬ opening.toList <+: text.toList ∧ ¬ text.toList <+: opening.toList := by
    decide +kernel
  obtain ⟨hleft, hright⟩ := hapart opening hopening text htext
  intro heq
  rw [hmessage] at heq
  exact (prefix_or_prefix_of_append_eq heq).elim hleft hright

/-- Only an unusable value is reported as one of an unexpected kind. -/
theorem InjectionFault.eq_unusable_of_message {fault : InjectionFault} {rest : String}
    (h : fault.message = "unexpected value of kind " ++ rest) : ∃ kind, fault = .unusable kind := by
  have hapart : ∀ opening ∈ ["field expects ", "no matching setter, field, or put method",
      "no injectable slot"], ¬ opening.toList <+: "unexpected value of kind ".toList ∧
        ¬ "unexpected value of kind ".toList <+: opening.toList := by
    decide +kernel
  have hother {opening : String} (behind : String)
      (hopening : opening ∈ ["field expects ", "no matching setter, field, or put method",
        "no injectable slot"]) (hmessage : fault.message = opening ++ behind) : False := by
    rw [hmessage] at h
    obtain ⟨hleft, hright⟩ := hapart opening hopening
    exact (prefix_or_prefix_of_append_eq h).elim hleft hright
  cases fault with
  | unusable kind => exact ⟨kind, rfl⟩
  | fieldKind wanted given =>
    refine (hother (wanted.text ++ (", got " ++ given.text)) (.head _) ?_).elim
    rw [← String.append_assoc, ← String.append_assoc]
    rfl
  | noSlot => exact (hother "" (.tail _ (.head _)) String.append_empty.symm).elim
  | notInjectable => exact (hother "" (.tail _ (.tail _ (.head _))) String.append_empty.symm).elim

end Messages

/-- A construction of a built-in type never finds two factories for the same arguments, and never
fails because its type misreads arguments that the declared kinds have let through. A slot is handed
a value that it cannot use only if it is the directory of a command. -/
theorem Engine.build_never_misreads {engine : Engine} {libraries : Libraries} {b : Blueprint}
    {type : String} {arguments : List Value} {named : List (String × Value)} {m m' : Machine}
    {e : ConstructError} (hb : b ∈ Builtin.all libraries)
    (hlookup : engine.registry.lookup type = .ok b)
    (harguments : ∀ v ∈ arguments, v.isBuiltin = true)
    (hnamed : ∀ entry ∈ named, entry.2.isBuiltin = true)
    (h : outcome (engine.build type arguments named) m = (.error e, m')) :
    (∀ id given count, e ≠ .ambiguous id given count) ∧
    (∀ id fault, e = .instantiation id fault →
      ∀ text ∈ ["argument coercion failed", "factory read more arguments than given",
        "factory cannot use an argument of kind ", "no factory #", "item "],
        ∀ rest, fault.message ≠ text ++ rest) ∧
    ∀ id key fault, e = .injection id key fault →
      (∃ rest, fault.message = "unexpected value of kind " ++ rest) →
        id = TypeId.shell ∧ key = "dir" := by
  obtain ⟨Inv, hguarded⟩ := Builtin.isGuarded_of_mem hb
  have he : e.isInternal = false :=
    hguarded.build_guarded hlookup harguments hnamed m e (by rw [h])
  refine ⟨?_, ?_, ?_⟩
  · rintro id given count rfl
    cases he
  · rintro id fault rfl text htext rest
    exact Fault.message_ne_of_not_internal he htext rest
  · rintro id key fault rfl ⟨rest, hmessage⟩
    obtain ⟨kind, rfl⟩ := InjectionFault.eq_unusable_of_message hmessage
    simpa [ConstructError.isInternal, InjectionFault.isInternal] using he

/-- A number is no directory for a command. An array of nothing is accepted as one of texts. -/
theorem Engine.build_command_in_number :
    let engine : Engine := ⟨Registry.ofList [Builtin.shellExecutor] [], .constraints⟩
    let m := Machine.start ⟨.directory [], []⟩ []
    let arguments := [Value.string "ls", .array .any []]
    let named := [("dir", Value.int 3)]
    let e := ConstructError.injection TypeId.shell "dir" (.unusable .int)
    engine.registry.lookup TypeId.shell = .ok Builtin.shellExecutor ∧
      (∀ v ∈ arguments, v.isBuiltin = true) ∧ (∀ entry ∈ named, entry.2.isBuiltin = true) ∧
      outcome (engine.build TypeId.shell arguments named) m = (.error e, m) ∧
      ∀ id key fault, e = .injection id key fault →
        (∃ rest, fault.message = "unexpected value of kind " ++ rest) →
          id = TypeId.shell ∧ key = "dir" := by
  intro engine m arguments named e
  have hlookup : engine.registry.lookup TypeId.shell = .ok Builtin.shellExecutor :=
    Registry.lookup_of_resolve rfl rfl
  have harguments : ∀ v ∈ arguments, v.isBuiltin = true := by decide
  have hnamed : ∀ entry ∈ named, entry.2.isBuiltin = true := by decide
  have hfails : outcome (engine.build TypeId.shell arguments named) m = (.error e, m) := by
    unfold build construct
    rw [hlookup]
    rfl
  have hmember : Builtin.shellExecutor ∈ Builtin.all .own := by simp [Builtin.all]
  exact ⟨hlookup, harguments, hnamed, hfails,
    (build_never_misreads hmember hlookup harguments hnamed hfails).2.2⟩

end TypedConfig.Construct
