import TypedConfig.Proofs.Constructions
import TypedConfig.Proofs.TokensRead

/-!
# What a load leaves alone

A load changes a store only by the assignments that it executes, and by the entry that the load of a
file leaves when it has succeeded. So a key keeps its value unless one of these puts another one
under it, and no key is ever lost. The entry for the store itself stays, since the grammar has no
statement that assigns to it.
-/

namespace TypedConfig

namespace Syntax

variable {engine : Construct.Engine} {s : Statement} {l : Loading} {key : String}

/-- An assignment that ends well changes nothing under another key than its own, and one that fails
changes nothing at all. -/
theorem Statement.run_get?_of_ne (hs : s.isAssignment = true) (load : TextSource → Load Unit)
    (htarget : (outcome (s.run engine load) l).1 = .ok () → s.target? ≠ some key) :
    ((outcome (s.run engine load) l).2.store.get? key).result = (l.store.get? key).result := by
  obtain hsame | ⟨_, _, other, v, _, _, hother, _, hok, hput⟩ :=
    Statement.run_store hs engine load l
  · rw [hsame]
  · have hne : key ≠ other := fun h => htarget hok (h ▸ hother)
    rw [hput, Store.get?_put, if_neg hne]

/-- A default changes nothing under a key that is there. -/
theorem Statement.run_default_get? {name : Name} {e : Expr} {span : Source.Span} {v : Value}
    (hv : (l.store.get? key).result = some v) (load : TextSource → Load Unit) :
    ((outcome (Statement.run engine load ⟨.default name e, span⟩) l).2.store.get? key).result =
      some v := by
  obtain hsame | ⟨e, t, other, w, _, hevaluates, hother, _, _, hput⟩ :=
    Statement.run_store (s := ⟨.default name e, span⟩) rfl engine load l
  · rw [hsame, hv]
  · have hne : key ≠ other := by
      rintro rfl
      obtain rfl : name.text = key := Option.some.inj hother
      cases hevaluates with
      | default habsent =>
        rw [Store.contains_eq, hv] at habsent
        cases habsent
    rw [hput, Store.get?_put, if_neg hne, hv]

/-- A program runs an assignment to its end, itself or in a source that it includes. -/
def Completes (engine : Construct.Engine) (depth : Nat) (program : Program) (l : Loading)
    (s : Statement) : Prop :=
  ∃ depth' l', Executes engine depth program l depth' s l' ∧
    (outcome (s.run engine (Load.source engine 0)) l').1 = .ok ()

/-- A program changes nothing but what it assigns to. -/
theorem Statement.runAt_get? {depth : Nat} {program : Program} (hdepth : depth ≤ maxIncludeDepth)
    (htarget : ∀ s, Completes engine depth program l s → s.target? ≠ some key) :
    ((outcome (Statement.runAt engine depth program) l).2.store.get? key).result =
      (l.store.get? key).result := by
  refine Statement.runAt_keeps
    (P := fun t => (t.get? key).result = (l.store.get? key).result) hdepth ?_ rfl
  intro depth' s l' hexecutes hs hl'
  rw [Statement.run_get?_of_ne hs _ fun hok => htarget s ⟨depth', l', hexecutes, hok⟩, hl']

/-- No statement of a text assigns to the key for the store itself. -/
theorem target?_ne_self {text : String} {p : Program} (h : parse text = .ok p) (hs : s ∈ p) :
    s.target? ≠ some selfKey := by
  obtain ⟨us, _, hderives⟩ := statement_of_parse h hs
  cases hderives with
  | set hkey => exact fun h => hkey (Option.some.inj h)
  | default hkey => exact fun h => hkey (Option.some.inj h)
  | inclusion => exact nofun

/-- What is executed stands in a text: the one that is run, or an included one. -/
theorem Executes.mem_parsed {depth depth' : Nat} {program : Program} {l' : Loading}
    (h : Executes engine depth program l depth' s l')
    (hprogram : ∃ text p, parse text = .ok p ∧ ∀ t ∈ program, t ∈ p) :
    ∃ text p, parse text = .ok p ∧ s ∈ p := by
  induction h with
  | here =>
    obtain ⟨text, p, hparse, hmem⟩ := hprogram
    exact ⟨text, p, hparse, hmem _ (.head _)⟩
  | later _ _ ih =>
    obtain ⟨text, p, hparse, hmem⟩ := hprogram
    exact ih ⟨text, p, hparse, fun t ht => hmem t (.tail _ ht)⟩
  | inside _ _ hof _ ih =>
    obtain ⟨text, _, hparse⟩ := hof
    exact ih ⟨text, _, hparse, fun t ht => ht⟩

end Syntax

namespace Store

variable {engine : Construct.Engine} {m : Machine} {entry : Entry} {s : Store} {key : String}

/-- The load of an entry runs an assignment to its end, in the entry itself or in an included
source. -/
def Completes (engine : Construct.Engine) (m : Machine) (entry : Entry) (s : Store)
    (statement : Syntax.Statement) : Prop :=
  ∃ opened, entry.opened m = .ok opened ∧
    Syntax.Completes engine 0 opened.pending ⟨s, m, []⟩ statement

/-- The load is that of a file, succeeds and so leaves the file under a key. -/
def LeavesFile (engine : Construct.Engine) (m : Machine) (entry : Entry) (s : Store) (key : String)
    (file : String) : Prop :=
  key = Load.locationKey ∧ entry = .path file ∧ (s.load engine m entry).result = .ok ()

/-- A load loses no key. -/
theorem load_contains (h : (s.contains key).result = true) :
    ((s.load engine m entry).store.contains key).result = true :=
  load_keeps_of_put (P := fun t => (t.contains key).result = true) (fun other v _ ht =>
    contains_put ht other v) m entry h

/-- A load keeps what is under a key if every assignment does, unless it leaves a file there. -/
theorem load_get? {found : Option Value} (hassign : ∀ opened, entry.opened m = .ok opened →
      ∀ depth statement l, Syntax.Executes engine 0 opened.pending ⟨s, m, []⟩ depth statement l →
        statement.isAssignment = true → (l.store.get? key).result = found →
        ((outcome (statement.run engine (Load.source engine 0)) l).2.store.get? key).result = found)
    (hfile : ∀ file, ¬ s.LeavesFile engine m entry key file) (hs : (s.get? key).result = found) :
    ((s.load engine m entry).store.get? key).result = found := by
  refine load_keeps (P := fun t => (t.get? key).result = found) m entry s
    (fun opened hopened => hassign opened hopened) ?_ hs
  intro file t id hentry hok ht
  have hne : key ≠ Load.locationKey := fun h => hfile file ⟨h, hentry, hok⟩
  rw [get?_put, if_neg hne, ht]

/-- A load changes nothing under a key to which it assigns nothing. -/
theorem load_get?_of_untargeted
    (htarget : ∀ statement, s.Completes engine m entry statement → statement.target? ≠ some key)
    (hfile : ∀ file, ¬ s.LeavesFile engine m entry key file) :
    ((s.load engine m entry).store.get? key).result = (s.get? key).result := by
  refine load_get? (fun opened hopened depth statement l hexecutes hstatement hl => ?_) hfile rfl
  rw [Syntax.Statement.run_get?_of_ne hstatement _ fun hok =>
    htarget statement ⟨opened, hopened, depth, l, hexecutes, hok⟩, hl]

/-- A load changes nothing under a key that is there and that it does not set. -/
theorem load_get?_of_some {v : Value} (hv : (s.get? key).result = some v)
    (hset : ∀ name e span, s.Completes engine m entry ⟨.set name e, span⟩ → name.text ≠ key)
    (hfile : ∀ file, ¬ s.LeavesFile engine m entry key file) :
    ((s.load engine m entry).store.get? key).result = some v := by
  refine load_get? (fun opened hopened depth statement l hexecutes hstatement hl => ?_) hfile hv
  obtain ⟨⟨name, e⟩ | ⟨name, e⟩ | e, span⟩ := statement
  · rw [Syntax.Statement.run_get?_of_ne hstatement _ fun hok hsame =>
      hset name e span ⟨opened, hopened, depth, l, hexecutes, hok⟩ (Option.some.inj hsame), hl]
  · exact Syntax.Statement.run_default_get? hl _
  · cases hstatement

/-- A load puts nothing under the key for the store itself, so it keeps what the other puts keep. -/
theorem load_keeps_of_other_puts {P : Store → Prop}
    (hput : ∀ key v t, key ≠ selfKey → P t → P (t.put key v).result.2) (m : Machine) (entry : Entry)
    (hs : P s) : P (s.load engine m entry).store := by
  refine load_keeps m entry s (fun opened hopened depth statement l hexecutes hstatement hl => ?_)
    (fun file t id _ _ ht => hput Load.locationKey _ t (by decide) ht) hs
  obtain hsame | ⟨_, _, key, v, _, _, htarget, _, _, hstore⟩ :=
    Syntax.Statement.run_store hstatement engine (Load.source engine 0) l
  · rw [hsame]
    exact hl
  · obtain ⟨text, p, hparse, hmem⟩ :=
      hexecutes.mem_parsed ⟨_, _, Entry.parse_opened hopened, fun _ ht => ht⟩
    rw [hstore]
    refine hput key v l.store ?_ hl
    rintro rfl
    exact Syntax.target?_ne_self hparse hmem htarget

/-- A load leaves the entry for the store itself as it is. -/
theorem load_get?_self :
    ((s.load engine m entry).store.get? selfKey).result = (s.get? selfKey).result := by
  refine load_keeps_of_other_puts (P := fun t => (t.get? selfKey).result = (s.get? selfKey).result)
    (fun key v t hkey ht => ?_) m entry rfl
  rw [get?_put, if_neg hkey.symm, ht]

/-- The file that has been loaded is in the store. -/
theorem load_get?_of_leavesFile {file : String} (h : s.LeavesFile engine m entry key file) :
    ∃ id, ((s.load engine m entry).store.get? key).result = some (.object id (.file file)) := by
  obtain ⟨rfl, rfl, hok⟩ := h
  cases hopened : (Entry.path file).opened m with
  | error e =>
    rw [load_unopened s hopened] at hok
    cases hok
  | ok opened =>
    rcases hrun : outcome (opened.run engine 0) ⟨s, m, []⟩ with ⟨error | _, l⟩
    all_goals
      obtain ⟨hresult, hstore⟩ := load_opened hopened hrun
    · cases hok.symm.trans hresult
    · rw [hstore]
      refine ⟨(l.trail.machine.withOwner Load.locationKey).issue.1, ?_⟩
      exact (get?_put _ _ _ _).trans (if_pos rfl)

/-- A load loses no key, and it changes nothing under a key that is there except by a statement that
sets the key and by the file that it leaves. Where it assigns nothing it neither adds nor changes
anything; in particular no include and no load that fails leaves a file. -/
theorem load_touches_only_assigned (engine : Construct.Engine) :
    (∀ m entry (s : Store) key,
      ((s.contains key).result = true →
        ((s.load engine m entry).store.contains key).result = true) ∧
      (∀ v, (s.get? key).result = some v →
        (∀ name e span, s.Completes engine m entry ⟨.set name e, span⟩ → name.text ≠ key) →
        (∀ file, ¬ s.LeavesFile engine m entry key file) →
        ((s.load engine m entry).store.get? key).result = some v) ∧
      ((∀ statement, s.Completes engine m entry statement → statement.target? ≠ some key) →
        (∀ file, ¬ s.LeavesFile engine m entry key file) →
        ((s.load engine m entry).store.get? key).result = (s.get? key).result) ∧
      (∀ file, s.LeavesFile engine m entry key file →
        ∃ id, ((s.load engine m entry).store.get? key).result = some (.object id (.file file))) ∧
      ((s.load engine m entry).store.get? selfKey).result = (s.get? selfKey).result) ∧
    (∀ load name e span (l : Loading) key v, (l.store.get? key).result = some v →
      ((outcome (Syntax.Statement.run engine load ⟨.default name e, span⟩) l).2.store.get?
        key).result = some v) ∧
    (∀ depth program (l : Loading) key, depth ≤ maxIncludeDepth →
      (∀ s, Syntax.Completes engine depth program l s → s.target? ≠ some key) →
      ((outcome (Syntax.Statement.runAt engine depth program) l).2.store.get? key).result =
        (l.store.get? key).result) := by
  refine ⟨fun m entry s key => ?_, ?_, ?_⟩
  · refine ⟨load_contains, fun v => load_get?_of_some, load_get?_of_untargeted, ?_, load_get?_self⟩
    exact fun file => load_get?_of_leavesFile
  · intro load name e span l key v hv
    exact Syntax.Statement.run_default_get? hv load
  · intro depth program l key hdepth htarget
    exact Syntax.Statement.runAt_get? hdepth htarget

/-- A file that sets one key and has a default for another one leaves a third one alone, and the
default as well where the key is there already. -/
theorem load_file_touches_one :
    let m := Machine.start ⟨.directory [("f", .file "a = b; c ~ a;".toUTF8)], []⟩ []
    let s : Store := .map [("a", .int 1), ("b", .int 2), ("c", .int 3)]
    let loaded := s.load .standard m (.path "f")
    (loaded.store.contains "a").result = true ∧ (loaded.store.get? "b").result = some (.int 2) ∧
      (loaded.store.get? "c").result = some (.int 3) ∧
      ∃ id, (loaded.store.get? Load.locationKey).result = some (.object id (.file "f")) := by
  intro m s loaded
  let program : Syntax.Program :=
    [⟨.set ⟨"a", ⟨0, 1⟩⟩ (.variable "b" ⟨4, 5⟩), ⟨0, 6⟩⟩,
      ⟨.default ⟨"c", ⟨7, 8⟩⟩ (.variable "a" ⟨11, 12⟩), ⟨7, 13⟩⟩]
  have hfetch : (Entry.path "f").fetched m = .ok "a = b; c ~ a;" :=
    Load.fetch_file (by decide +kernel)
  have hparse : Syntax.parse "a = b; c ~ a;" = .ok program := by
    have hlex : lex "a = b; c ~ a;" = [⟨.key "a", ⟨0, 1⟩⟩, ⟨.equals, ⟨2, 3⟩⟩, ⟨.key "b", ⟨4, 5⟩⟩,
        ⟨.semicolon, ⟨5, 6⟩⟩, ⟨.key "c", ⟨7, 8⟩⟩, ⟨.tilde, ⟨9, 10⟩⟩, ⟨.key "a", ⟨11, 12⟩⟩,
        ⟨.semicolon, ⟨12, 13⟩⟩, ⟨.endOfInput, ⟨13, 13⟩⟩] := by
      decide +kernel
    rw [Syntax.parse, hlex]
    rfl
  have hopened : (Entry.path "f").opened m =
      .ok ⟨(Entry.path "f").title, "a = b; c ~ a;", program⟩ := by
    rw [Entry.opened_of_fetched hfetch, OpenText.parsed, hparse]
  have hset : ∀ name e span, s.Completes .standard m (.path "f") ⟨.set name e, span⟩ →
      name.text = "a" := by
    rintro name e span ⟨opened, hopened', _, _, hexecutes, _⟩
    cases hopened.symm.trans hopened'
    cases hexecutes with
    | here => rfl
    | later _ hexecutes =>
      cases hexecutes with
      | later _ hexecutes => cases hexecutes
  have hleaves : s.LeavesFile .standard m (.path "f") Load.locationKey "f" := by
    exact ⟨rfl, rfl, (load_opened hopened rfl).1⟩
  have htouches := (load_touches_only_assigned .standard).1 m (.path "f") s
  have hother {key : String} (hkey : key ≠ "a" ∧ key ≠ Load.locationKey) {v : Value}
      (hv : (s.get? key).result = some v) : (loaded.store.get? key).result = some v :=
    (htouches key).2.1 v hv (fun name e span h hsame => hkey.1 (hsame ▸ hset name e span h))
      fun _ h => hkey.2 h.1
  exact ⟨(htouches "a").1 rfl, hother (by decide) rfl, hother (by decide) rfl,
    (htouches Load.locationKey).2.2.2.1 "f" hleaves⟩

end Store

end TypedConfig
