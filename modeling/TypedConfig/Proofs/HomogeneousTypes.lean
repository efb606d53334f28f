import TypedConfig.Construct.Standard
import TypedConfig.Proofs.Building
import TypedConfig.Proofs.Homogeneous

/-!
# Types that make homogeneous values

Every built-in type makes homogeneous values from homogeneous arguments, except for the union of
arrays. A union declares the kind of its first array for the items of all of them. What it makes is
homogeneous exactly if that kind accepts the items.
-/

namespace TypedConfig.Construct

/-- The steps of a type make homogeneous values from homogeneous arguments. -/
def Blueprint.KeepsHomogeneous (b : Blueprint) : Prop :=
  ∃ Inv, b.Carries (·.isHomogeneous = true) (fun _ => True) Inv (·.isHomogeneous = true)

/-- A type keeps values homogeneous if it makes nothing else. -/
theorem Blueprint.keepsHomogeneous_of_finish {b : Blueprint}
    (h : ∀ state, Yields (·.isHomogeneous = true) (b.finish state)) : b.KeepsHomogeneous :=
  ⟨fun _ => True, fun _ _ _ _ => trivial, fun _ _ _ => trivial, fun _ _ => trivial,
    fun {state} _ => h state⟩

/-- An object is made with the content that it is given. -/
theorem Build.object_yields (content : Content) :
    Yields (fun v => ∃ id, v = .object id content) (Build.object content) := by
  unfold Build.object
  exact .after fun m => .after fun _ => .pure ⟨_, rfl⟩

/-- An object of a homogeneous content is homogeneous. -/
theorem Build.object_isHomogeneous {content : Content} (h : content.isHomogeneous = true) :
    Yields (·.isHomogeneous = true) (Build.object content) := by
  intro m v m' hv
  obtain ⟨id, rfl⟩ := Build.object_yields content m v m' hv
  exact h

namespace Builtin

section Files

/-- A canonical path is a file, which holds no array. -/
theorem canonicalFile_yields (type path : String) :
    Yields (·.isHomogeneous = true) (canonicalFile type path) := by
  unfold canonicalFile
  refine .after fun m => ?_
  split
  · exact Build.object_isHomogeneous rfl
  · exact .throw _

/-- What exists is a file, which holds no array. -/
theorem existingFile_keeps : existingFile.KeepsHomogeneous := by
  refine Blueprint.keepsHomogeneous_of_finish fun path => .after fun m => ?_
  split
  · exact canonicalFile_yields _ _
  · exact .throw _

/-- What does not exist is a file, which holds no array. -/
theorem nonExistingFile_keeps : nonExistingFile.KeepsHomogeneous := by
  refine Blueprint.keepsHomogeneous_of_finish fun path => .after fun m => ?_
  dsimp only
  split
  · exact .throw _
  · split
    · exact Build.object_isHomogeneous rfl
    · exact .throw _

/-- A directory is a file, which holds no array. -/
theorem forcedDirectory_keeps : forcedDirectory.KeepsHomogeneous := by
  refine Blueprint.keepsHomogeneous_of_finish fun path => .after fun _ => .after fun m => ?_
  split
  · exact canonicalFile_yields _ _
  · exact .throw _

/-- File objects are accepted where files are asked for. -/
theorem fileObjects_yields (paths : List String) :
    Yields (fun vs => ∀ v ∈ vs, fileKind.accepts v = true ∧ v.isHomogeneous = true)
      (fileObjects paths) := by
  induction paths with
  | nil => exact .pure nofun
  | cons path paths ih =>
    refine .bind _ (Build.object_yields (.file path)) fun v hv => ?_
    refine .bind _ ih fun vs hvs => .pure fun w hw => ?_
    obtain ⟨id, rfl⟩ := hv
    rcases List.mem_cons.mp hw with rfl | hw
    · exact ⟨by simp [fileKind, Kind.accepts, Content.isA, Content.typeId], rfl⟩
    · exact hvs w hw

/-- The files of a directory are declared as files. -/
theorem filesInDirectory_keeps : filesInDirectory.KeepsHomogeneous := by
  refine Blueprint.keepsHomogeneous_of_finish fun state => .after fun m => ?_
  dsimp only
  split
  · exact .throw _
  · split
    · exact .throw _
    · split
      · exact .throw _
      · refine .bind _ (fileObjects_yields _) fun files hfiles => .pure ?_
        exact (Value.isHomogeneous_array _ _).mpr hfiles

/-- The lines of files are declared as texts. -/
theorem stringArrayFromFile_keeps : stringArrayFromFile.KeepsHomogeneous := by
  refine Blueprint.keepsHomogeneous_of_finish fun paths => .after fun m => ?_
  split
  · exact .pure (Value.isHomogeneous_strings _)
  · exact .throw _

end Files

section Texts

/-- The parts of a text are declared as texts. -/
theorem stringSplitter_keeps (libraries : Libraries) :
    (stringSplitter libraries).KeepsHomogeneous := by
  refine Blueprint.keepsHomogeneous_of_finish fun state => ?_
  dsimp only [stringSplitter]
  split
  · exact .pure (Value.isHomogeneous_strings _)
  · exact .throw _

/-- Joined texts are one text. -/
theorem joinStrings_keeps : joinStrings.KeepsHomogeneous := by
  refine Blueprint.keepsHomogeneous_of_finish fun state => ?_
  change Yields _ (if state.violations.isEmpty then pure (Value.string state.text) else _)
  split
  · exact .pure rfl
  · exact .throw _

/-- Extended texts are declared as texts. -/
theorem modifyStringArray_keeps : modifyStringArray.KeepsHomogeneous :=
  Blueprint.keepsHomogeneous_of_finish fun _ => .pure (Value.isHomogeneous_strings _)

end Texts

section System

/-- The variables of the environment are texts. -/
theorem selectVariables_isHomogeneous (entries : Entries String) (regex : Option Regex) :
    (Content.map (selectVariables entries regex)).isHomogeneous = true := by
  refine (Value.entriesAreHomogeneous_iff _).mpr fun entry hentry => ?_
  unfold selectVariables at hentry
  split at hentry <;>
  · obtain ⟨_, _, rfl⟩ := List.mem_map.mp hentry
    rfl

/-- The environment holds texts, with and without a filter. -/
theorem environment_keeps (libraries : Libraries) :
    (environment libraries).KeepsHomogeneous := by
  refine Blueprint.keepsHomogeneous_of_finish fun filter => ?_
  cases filter with
  | none => exact .after fun m => Build.object_isHomogeneous (selectVariables_isHomogeneous _ _)
  | some text =>
    dsimp only [environment]
    split
    · exact .after fun m => Build.object_isHomogeneous (selectVariables_isHomogeneous _ _)
    · exact .throw _

end System

section Collections

/-- The arguments of an array type as an array. -/
theorem array_isHomogeneous {values rest : List Value} {array : Kind × List Value}
    (hvalues : ∀ v ∈ values, v.isHomogeneous = true)
    (h : Arguments.array.run values = .ok (array, rest)) :
    (Value.array array.1 array.2).isHomogeneous = true := by
  have hfirst := Arguments.array_ok h
  exact hvalues _ (hfirst ▸ .head _)

/-- A map holds what it is given. -/
theorem hashMap_keeps : hashMap.KeepsHomogeneous := by
  refine ⟨fun entries : Entries Value => ∀ entry ∈ entries, entry.2.isHomogeneous = true,
    ?_, ?_, ?_, ?_⟩
  · intro f values entries rest hf hvalues _ hrun
    rcases List.mem_cons.mp hf with rfl | hf
    · cases hrun
      exact nofun
    · obtain rfl := List.mem_singleton.mp hf
      obtain ⟨v, rfl, huse⟩ := Arguments.next_ok hrun
      have hv := hvalues v (.head _)
      split at huse
      · cases huse
        exact (Value.entriesAreHomogeneous_iff _).mp hv
      · cases huse
  · intro target v entries entries' hv hentries h
    cases h
    intro entry hentry
    rcases Entries.eq_or_mem_of_mem_insert hentry with rfl | hold
    · exact hv
    · exact hentries entry hold
  · intro entries entries' hentries h
    cases h
    exact hentries
  · intro entries hentries
    exact Build.object_isHomogeneous ((Value.entriesAreHomogeneous_iff _).mpr hentries)

/-- The first occurrences of items are items. -/
theorem mem_of_mem_distinctFrom {kept vs : List Value} {w : Value} (h : w ∈ distinctFrom kept vs) :
    w ∈ kept ∨ w ∈ vs := by
  induction vs generalizing kept with
  | nil => exact .inl h
  | cons v vs ih =>
    rcases ih h with hkept | hlater
    · split at hkept
      · exact .inl hkept
      · rcases List.mem_append.mp hkept with hold | hnew
        · exact .inl hold
        · exact .inr (List.mem_singleton.mp hnew ▸ .head _)
    · exact .inr (.tail _ hlater)

/-- A type whose state is the array that is its argument. -/
theorem keepsHomogeneous_of_array (typeId : String) (parameters : List Kind)
    (finish : Kind × List Value → Build Value)
    (hfinish : ∀ array, (Value.array array.1 array.2).isHomogeneous = true →
      Yields (·.isHomogeneous = true) (finish array)) :
    Blueprint.KeepsHomogeneous
      { typeId, State := Kind × List Value, factories := [⟨parameters, Arguments.array⟩],
        finish } := by
  refine ⟨fun array : Kind × List Value => (Value.array array.1 array.2).isHomogeneous = true,
    ?_, ?_, ?_, ?_⟩
  · intro f values array rest hf hvalues _ hrun
    obtain rfl := List.mem_singleton.mp hf
    exact array_isHomogeneous hvalues hrun
  · intro target v state state' _ _ h
    cases h
  · intro state state' hstate h
    cases h
    exact hstate
  · intro state hstate
    exact hfinish state hstate

/-- The distinct items of an array are items of it. -/
theorem setBuilder_keeps : setBuilder.KeepsHomogeneous := by
  refine keepsHomogeneous_of_array _ _ _ fun array harray => .pure ?_
  refine Value.isHomogeneous_array_subset harray fun v hv => ?_
  exact (mem_of_mem_distinctFrom hv).resolve_left List.not_mem_nil

/-- A list holds the items of its array. -/
theorem arrayToList_keeps : arrayToList.KeepsHomogeneous := by
  refine keepsHomogeneous_of_array _ _ _ fun array harray => Build.object_isHomogeneous ?_
  rw [Value.isHomogeneous_array] at harray
  exact (Value.areHomogeneous_iff _).mpr fun v hv => (harray v hv).2

/-- The arrays among the items of an array are its items. -/
theorem nestedFrom_ok {index : Nat} {items : List Value} {arrays : List (Kind × List Value)}
    (h : nestedFrom index items = .ok arrays) :
    items = arrays.map fun array => .array array.1 array.2 := by
  induction items generalizing index arrays with
  | nil =>
    cases h
    rfl
  | cons v items ih =>
    cases v with
    | array element xs =>
      rw [nestedFrom] at h
      cases hrest : nestedFrom (index + 1) items with
      | error fault =>
        rw [hrest] at h
        cases h
      | ok rest =>
        rw [hrest] at h
        cases h
        rw [List.map_cons, ← ih hrest]
    | _ => cases h

/-- Arrays in an array are taken out in order. -/
theorem nestedArrays_ok {items : List Value} {first : Kind × List Value}
    {rest : List (Kind × List Value)} (h : nestedArrays items = .ok (first, rest)) :
    items = (first :: rest).map fun array => .array array.1 array.2 := by
  unfold nestedArrays at h
  cases hnested : nestedFrom 0 items with
  | error fault =>
    rw [hnested] at h
    cases h
  | ok arrays =>
    rw [hnested] at h
    cases arrays with
    | nil => cases h
    | cons first rest =>
      cases h
      exact nestedFrom_ok hnested

/-- Common items are items of the first array. -/
theorem intersection_keeps : intersection.KeepsHomogeneous := by
  refine keepsHomogeneous_of_array _ _ _ fun array harray => ?_
  split
  · exact .throw _
  next first rest hnested =>
    refine .pure ?_
    rw [nestedArrays_ok hnested, Value.isHomogeneous_array] at harray
    have hfirst := (harray (.array first.1 first.2) (.head _)).2
    exact Value.isHomogeneous_array_subset hfirst List.filter_sublist.subset

/-- An item that is picked is one of the items. -/
theorem itemAt_ok {items : List Value} {index : Int} {v : Value} (h : itemAt items index = .ok v) :
    v ∈ items := by
  unfold itemAt at h
  split at h
  · cases h
  · split at h
    next hfound =>
      cases h
      exact List.mem_of_getElem? hfound
    next => cases h

/-- A picked item is homogeneous as the array is. -/
theorem selectItem_keeps : selectItem.KeepsHomogeneous := by
  refine ⟨fun state : List Value × Int => ∀ v ∈ state.1, v.isHomogeneous = true, ?_, ?_, ?_, ?_⟩
  · intro f values state rest hf hvalues _ hrun
    obtain rfl := List.mem_singleton.mp hf
    obtain ⟨array, between, harray, hrun⟩ := Arguments.bind_ok hrun
    obtain ⟨index, _, _, hrun⟩ := Arguments.bind_ok hrun
    cases hrun
    have hhomogeneous := (Value.isHomogeneous_array _ _).mp (array_isHomogeneous hvalues harray)
    exact fun v hv => (hhomogeneous v hv).2
  · intro target v state state' _ _ h
    cases h
  · intro state state' hstate h
    cases h
    exact hstate
  · intro state hstate
    dsimp only [selectItem]
    split
    next v hitem => exact .pure (hstate v (itemAt_ok hitem))
    next => exact .throw _

/-- What is drawn is drawn from the sample so far and the further items. -/
theorem mem_of_mem_drawFrom {generator : Generator} {requests : List Nat}
    {sample vs : List Value} {index : Nat} {w : Value}
    (h : w ∈ drawFrom generator requests sample index vs) : w ∈ sample ∨ w ∈ vs := by
  induction vs generalizing sample index requests with
  | nil => exact .inl h
  | cons v vs ih =>
    rcases ih h with hsample | hlater
    · rcases List.mem_or_eq_of_mem_set hsample with hold | rfl
      · exact .inl hold
      · exact .inr (.head _)
    · exact .inr (.tail _ hlater)

/-- Drawn items are items, whatever the generator draws. -/
theorem drawSample_keeps (libraries : Libraries) :
    (drawSample libraries).KeepsHomogeneous := by
  refine ⟨fun sample : Sample => (Value.array sample.element sample.items).isHomogeneous = true,
    ?_, ?_, ?_, ?_⟩
  · intro f values sample rest hf hvalues _ hrun
    obtain rfl := List.mem_singleton.mp hf
    obtain ⟨array, between, harray, hrun⟩ := Arguments.bind_ok hrun
    obtain ⟨size, _, _, hrun⟩ := Arguments.bind_ok hrun
    cases hrun
    exact array_isHomogeneous hvalues harray
  · intro target v sample sample' _ hsample h
    dsimp only [drawSample] at h
    split at h
    · cases h
      exact hsample
    · cases h
  · intro sample sample' hsample h
    cases h
    exact hsample
  · intro sample hsample
    change Yields _ (if _ then _ else _)
    split
    · exact .throw _
    · refine .after fun generator => .pure ?_
      refine Value.isHomogeneous_array_subset hsample fun v hv => ?_
      rcases mem_of_mem_drawFrom hv with hfirst | hlater
      · exact List.mem_of_mem_take hfirst
      · exact List.mem_of_mem_drop hlater

end Collections

section Union

/-- Whether the kind of the first of several arrays accepts the items of the others. -/
def fitTogether : List Value → Bool
  | .array element _ :: rest => rest.all fun v =>
    match v with
    | .array _ items => items.all (element.accepts ·)
    | _ => true
  | _ => true

/-- Whether the arrays that a union is asked for fit together. -/
def unionFits : List Value → Bool
  | .array _ arrays :: _ => fitTogether arrays
  | _ => true

/-- Identical objects carry the same tags. -/
theorem isA_of_identical {c d : Content} (h : c.identical d = true) (tag : String) :
    c.isA tag = d.isA tag := by
  unfold Content.identical at h
  split at h
  case h_12 => rw [eq_of_beq h]
  all_goals first | rfl | cases h

/-- Equal objects carry the same tags. -/
theorem isA_of_equal {c d : Content} (h : c.equal d = true) (tag : String) :
    c.isA tag = d.isA tag := by
  unfold Content.equal at h
  split at h
  all_goals first | rfl | cases h

/-- Equal values are accepted by the same kinds. -/
theorem accepts_of_equal {v w : Value} (h : v.equal w = true) (kind : Kind) :
    kind.accepts v = kind.accepts w := by
  induction kind generalizing v w with
  | array want ih =>
    unfold Value.equal at h
    split at h
    case h_7 given xs given' ys =>
      rw [Bool.and_eq_true, beq_iff_eq] at h
      obtain ⟨rfl, hitems⟩ := h
      have hall : xs.isEmpty = ys.isEmpty ∧ xs.all (want.accepts ·) = ys.all (want.accepts ·) := by
        clear given
        induction xs generalizing ys with
        | nil =>
          cases ys with
          | nil => exact ⟨rfl, rfl⟩
          | cons => simp [Value.equalLists] at hitems
        | cons x xs ihxs =>
          cases ys with
          | nil => simp [Value.equalLists] at hitems
          | cons y ys =>
            rw [Value.equalLists, Bool.and_eq_true] at hitems
            exact ⟨rfl, by rw [List.all_cons, List.all_cons, ih hitems.1, (ihxs ys hitems.2).2]⟩
      rw [Kind.accepts, Kind.accepts, hall.1, hall.2]
    all_goals first | rfl | cases h
  | object tag =>
    unfold Value.equal at h
    split at h
    case h_8 =>
      rw [Bool.or_eq_true, Bool.and_eq_true] at h
      rcases h with ⟨_, hidentical⟩ | hequal
      · exact isA_of_identical hidentical tag
      · exact isA_of_equal hequal tag
    all_goals first | rfl | cases h
  | _ =>
    unfold Value.equal at h
    split at h
    all_goals first | rfl | cases h

/-- The items of a union come from its arrays. -/
theorem mem_of_mem_union {arrays : List (Kind × List Value)} {kept : List Value} {w : Value}
    (h : w ∈ arrays.foldl (fun kept array => distinctFrom kept array.2) kept) :
    w ∈ kept ∨ ∃ array ∈ arrays, w ∈ array.2 := by
  induction arrays generalizing kept with
  | nil => exact .inl h
  | cons array arrays ih =>
    rcases ih h with hkept | ⟨array', harray', hw⟩
    · rcases mem_of_mem_distinctFrom hkept with hold | hnew
      · exact .inl hold
      · exact .inr ⟨array, .head _, hnew⟩
    · exact .inr ⟨array', .tail _ harray', hw⟩

/-- Items that are kept stay kept. -/
theorem subset_distinctFrom (kept vs : List Value) : kept ⊆ distinctFrom kept vs := by
  induction vs generalizing kept with
  | nil => exact List.Subset.refl _
  | cons v vs ih =>
    refine fun w hw => ih _ ?_
    split
    · exact hw
    · exact List.mem_append_left _ hw

/-- For each item an equal one is kept, or the item itself. -/
theorem exists_equal_of_mem_distinctFrom (kept : List Value) {vs : List Value} {v : Value}
    (hv : v ∈ vs) :
    ∃ w ∈ distinctFrom kept vs, w = v ∨ w.equal v = true := by
  induction vs generalizing kept with
  | nil => cases hv
  | cons v' vs ih =>
    rcases List.mem_cons.mp hv with rfl | hv
    · cases hin : v.isIn kept with
      | true =>
        obtain ⟨w, hw, hequal⟩ := List.any_eq_true.mp hin
        refine ⟨w, ?_, .inr hequal⟩
        rw [distinctFrom, hin]
        exact subset_distinctFrom _ _ hw
      | false =>
        refine ⟨v, ?_, .inl rfl⟩
        rw [distinctFrom, hin]
        exact subset_distinctFrom _ _ (List.mem_append_right _ (.head _))
    · exact ih _ hv

/-- Each item of an array has an equal one in a union. -/
theorem exists_equal_of_mem_union (kept : List Value) {arrays : List (Kind × List Value)}
    {array : Kind × List Value} (harray : array ∈ arrays) {v : Value} (hv : v ∈ array.2) :
    ∃ w ∈ arrays.foldl (fun kept array => distinctFrom kept array.2) kept,
      w = v ∨ w.equal v = true := by
  have hsubset (arrays : List (Kind × List Value)) (kept : List Value) :
      kept ⊆ arrays.foldl (fun kept array => distinctFrom kept array.2) kept := by
    induction arrays generalizing kept with
    | nil => exact List.Subset.refl _
    | cons array arrays ih => exact fun w hw => ih _ (subset_distinctFrom _ _ hw)
  induction arrays generalizing kept with
  | nil => cases harray
  | cons array' arrays ih =>
    rcases List.mem_cons.mp harray with rfl | harray
    · obtain ⟨w, hw, hequal⟩ := exists_equal_of_mem_distinctFrom kept hv
      exact ⟨w, hsubset arrays (distinctFrom kept array.2) hw, hequal⟩
    · exact ih _ harray

/-- Arrays fit together if each item of each of them is accepted by the kind of the first one. -/
theorem fitTogether_iff {first : Kind × List Value} {rest : List (Kind × List Value)}
    (hfirst : ∀ v ∈ first.2, first.1.accepts v = true) :
    fitTogether ((first :: rest).map fun array => .array array.1 array.2) = true ↔
      ∀ array ∈ first :: rest, ∀ v ∈ array.2, first.1.accepts v = true := by
  simp only [List.map_cons, fitTogether, List.all_map, Function.comp_def, List.all_eq_true,
    List.mem_cons, forall_eq_or_imp]
  exact ⟨fun h => ⟨hfirst, h⟩, fun h => h.2⟩

/-- A union of homogeneous arrays is homogeneous exactly if the arrays fit together. -/
theorem union_isHomogeneous_iff {first : Kind × List Value} {rest : List (Kind × List Value)}
    (h : ∀ array ∈ first :: rest, (Value.array array.1 array.2).isHomogeneous = true) :
    (Value.array first.1
        ((first :: rest).foldl (fun kept array => distinctFrom kept array.2) [])).isHomogeneous =
      fitTogether ((first :: rest).map fun array => .array array.1 array.2) := by
  have hitem {array : Kind × List Value} (harray : array ∈ first :: rest) {v : Value}
      (hv : v ∈ array.2) : array.1.accepts v = true ∧ v.isHomogeneous = true :=
    (Value.isHomogeneous_array _ _).mp (h array harray) v hv
  rw [Bool.eq_iff_iff, fitTogether_iff fun v hv => (hitem (.head _) hv).1,
    Value.isHomogeneous_array]
  constructor
  · intro hunion array harray v hv
    obtain ⟨w, hw, rfl | hequal⟩ := exists_equal_of_mem_union [] harray hv
    · exact (hunion w hw).1
    · rw [← accepts_of_equal hequal]
      exact (hunion w hw).1
  · intro hfit v hv
    obtain hnil | ⟨array, harray, hv⟩ := mem_of_mem_union hv
    · cases hnil
    · exact ⟨hfit array harray v hv, (hitem harray hv).2⟩

/-- What a union makes of homogeneous arrays is homogeneous exactly if they fit together. -/
theorem union_carries (fits : Bool) :
    ∃ Inv, union.Carries (·.isHomogeneous = true) (fun values => unionFits values = fits) Inv
      (·.isHomogeneous = fits) := by
  refine ⟨fun array : Kind × List Value => (Value.array array.1 array.2).isHomogeneous = true ∧
    fitTogether array.2 = fits, ?_, ?_, ?_, ?_⟩
  · intro f values array rest hf hvalues hfits hrun
    obtain rfl := List.mem_singleton.mp hf
    rw [Arguments.array_ok hrun] at hfits
    exact ⟨array_isHomogeneous hvalues hrun, hfits⟩
  · intro target v state state' _ _ h
    cases h
  · intro state state' hstate h
    cases h
    exact hstate
  · intro array ⟨harray, hfits⟩
    dsimp only [union]
    split
    · exact .throw _
    next first rest hnested =>
      have harrays := nestedArrays_ok hnested
      rw [harrays, Value.isHomogeneous_array] at harray
      refine .pure ?_
      rw [← hfits, harrays]
      exact union_isHomogeneous_iff fun array' harray' =>
        (harray _ (List.mem_map_of_mem harray')).2

/-- The array that a union is asked for may change its declared kind, but not its items. -/
theorem unionFits_of_coerceAll {arguments values : List Value}
    (h : coerceAll [.array anyArray] arguments = some values) :
    unionFits values = unionFits arguments := by
  have hitem {v w : Value} (hw : anyArray.coerce v = some w) : w = v := by
    unfold anyArray at hw
    cases v with
    | array given items =>
      simp only [Kind.coerce, true_or, if_true] at hw
      split at hw <;> cases hw
      rfl
    | _ => simp [Kind.coerce, Kind.accepts] at hw
  have hitems {items items' : List Value} (h : items.mapM anyArray.coerce = some items') :
      items' = items := by
    induction items generalizing items' with
    | nil =>
      cases h
      rfl
    | cons v items ih =>
      rw [List.mapM_cons] at h
      obtain ⟨w, hw, h⟩ := Option.bind_eq_some_iff.mp h
      obtain ⟨rest, hrest, h⟩ := Option.bind_eq_some_iff.mp h
      cases h
      rw [hitem hw, ih hrest]
  cases arguments with
  | nil =>
    cases h
    rfl
  | cons v arguments =>
    obtain ⟨w, hw, h⟩ := Option.bind_eq_some_iff.mp h
    cases h
    obtain ⟨rfl, haccepts⟩ | ⟨_, hkind, _⟩ | ⟨_, hkind, _⟩ |
      ⟨_, _, _, _, hkind, rfl, hmapped, rfl⟩ := Kind.coerce_cases hw
    · cases w <;> rfl
    · cases hkind
    · cases hkind
    · cases hkind
      rw [hitems hmapped]
      rfl

end Union

/-- Every built-in type except the union keeps values homogeneous. -/
theorem keepsHomogeneous {libraries : Libraries} {b : Blueprint} (h : b ∈ all libraries)
    (hunion : b ≠ union) : b.KeepsHomogeneous := by
  simp only [all, List.mem_cons, List.not_mem_nil, or_false] at h
  have object {b : Blueprint} (h : ∀ state, ∃ content, b.finish state = Build.object content ∧
      content.isHomogeneous = true) : b.KeepsHomogeneous := by
    refine Blueprint.keepsHomogeneous_of_finish fun state => ?_
    obtain ⟨content, hfinish, hcontent⟩ := h state
    rw [hfinish]
    exact Build.object_isHomogeneous hcontent
  rcases h with rfl | rfl | rfl | rfl | rfl | rfl | rfl | rfl | rfl | rfl | rfl | rfl | rfl | rfl |
    rfl | rfl | rfl | rfl | rfl | rfl | rfl | rfl | rfl | rfl | rfl
  · exact object fun _ => ⟨_, rfl, rfl⟩
  · exact existingFile_keeps
  · exact nonExistingFile_keeps
  · exact forcedDirectory_keeps
  · exact filesInDirectory_keeps
  · exact object fun _ => ⟨_, rfl, rfl⟩
  · exact stringArrayFromFile_keeps
  · exact object fun _ => ⟨_, rfl, rfl⟩
  · exact object fun _ => ⟨_, rfl, rfl⟩
  · exact object fun _ => ⟨_, rfl, rfl⟩
  · exact object fun _ => ⟨_, rfl, rfl⟩
  · exact hashMap_keeps
  · exact setBuilder_keeps
  · exact arrayToList_keeps
  · exact intersection_keeps
  · exact (hunion rfl).elim
  · exact selectItem_keeps
  · exact drawSample_keeps _
  · exact stringSplitter_keeps _
  · exact joinStrings_keeps
  · exact modifyStringArray_keeps
  · exact environment_keeps _
  · exact Blueprint.keepsHomogeneous_of_finish fun _ => .pure rfl
  · exact object fun _ => ⟨_, rfl, rfl⟩
  · exact Blueprint.keepsHomogeneous_of_finish fun _ => .after fun _ =>
      Build.object_isHomogeneous rfl

end Builtin

namespace Engine

variable {type : String} {arguments : List Value} {named : List (String × Value)}

/-- A union makes a homogeneous array of homogeneous arguments exactly if they fit together. -/
theorem build_union {engine : Engine} (hunion : engine.registry.lookup type = .ok Builtin.union)
    (harguments : ∀ v ∈ arguments, v.isHomogeneous = true)
    (hnamed : ∀ entry ∈ named, entry.2.isHomogeneous = true) :
    Yields (·.isHomogeneous = Builtin.unionFits arguments) (engine.build type arguments named) := by
  obtain ⟨Inv, hcarries⟩ := Builtin.union_carries (Builtin.unionFits arguments)
  refine build_yields hunion hcarries Kind.coerce_isHomogeneous ?_ harguments hnamed
  intro f hf values hvalues
  obtain rfl := List.mem_singleton.mp hf
  exact Builtin.unionFits_of_coerceAll hvalues

/-- A built-in type makes homogeneous values of homogeneous arguments, if those of a union fit
together. -/
theorem build_isHomogeneous (libraries : Libraries) (shortcuts : Shortcuts)
    (validator : Validator) (harguments : ∀ v ∈ arguments, v.isHomogeneous = true)
    (hnamed : ∀ entry ∈ named, entry.2.isHomogeneous = true)
    (hfits : (Registry.standard libraries shortcuts).lookup type = .ok Builtin.union →
      Builtin.unionFits arguments = true) :
    Yields (·.isHomogeneous = true)
      ((⟨Registry.standard libraries shortcuts, validator⟩ : Engine).build type arguments
        named) := by
  let engine : Engine := ⟨Registry.standard libraries shortcuts, validator⟩
  cases hlookup : engine.registry.lookup type with
  | error e => exact build_unknown hlookup arguments named
  | ok b =>
    by_cases hunion : b = Builtin.union
    · rw [hunion] at hlookup
      rw [← hfits hlookup]
      exact build_union hlookup harguments hnamed
    · have hmem : b ∈ Builtin.all libraries := Registry.lookup_ofList hlookup
      obtain ⟨Inv, hcarries⟩ := Builtin.keepsHomogeneous hmem hunion
      exact build_yields hlookup hcarries Kind.coerce_isHomogeneous (fun _ _ _ _ => trivial)
        harguments hnamed

end Engine

end TypedConfig.Construct
