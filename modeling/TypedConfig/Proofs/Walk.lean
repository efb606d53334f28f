import TypedConfig.Proofs.Levels

/-!
# Loads step by step

A load as a walk over statements. A walk has the text in which it is, and the includes that are
open around that text. A step runs one assignment, opens the source of an include, or leaves a text
whose statements have all been run. Nothing but the number of open includes keeps a walk from going
on for ever, since sources may include themselves.

Every walk comes to an end, which is that of the load, and never has more includes open than are
allowed.
-/

namespace TypedConfig

/-- A text of which some statements are still to be run. -/
structure OpenText where
  origin : String
  text : String
  pending : Syntax.Program

namespace OpenText

/-- Parses a text. -/
def parsed (origin text : String) : Except LoadError OpenText :=
  match Syntax.parse text with
  | .error e => .error (Located.inText origin text ⟨e.span, .grammar e.fault⟩)
  | .ok program => .ok ⟨origin, text, program⟩

/-- Fetches and parses the text of a source. -/
def opened (m : Machine) (source : TextSource) : Except LoadError OpenText := do
  parsed source.text (← Load.fetch m source)

/-- A parsed text is still to be run as a whole. -/
theorem parsed_eq_ok {origin text : String} {t : OpenText} (h : parsed origin text = .ok t) :
    t.origin = origin ∧ t.text = text ∧ Syntax.parse text = .ok t.pending := by
  unfold parsed at h
  cases hparse : Syntax.parse text with
  | error e =>
    rw [hparse] at h
    cases h
  | ok program =>
    rw [hparse] at h
    cases h
    exact ⟨rfl, rfl, rfl⟩

/-- Runs the statements of a text whose includes are at a depth. -/
def run (engine : Construct.Engine) (depth : Nat) (t : OpenText) : Load Unit :=
  ExceptT.adapt (Located.inText t.origin t.text) (Syntax.Statement.runAt engine depth t.pending)

/-- The load of a text parses it and runs it. -/
theorem text_eq (engine : Construct.Engine) (depth : Nat) (origin text : String) (l : Loading) :
    outcome (Load.text engine (Load.source engine (maxIncludeDepth - depth)) origin text) l =
      match parsed origin text with
      | .error e => (.error e, l)
      | .ok t => outcome (t.run engine depth) l := by
  unfold parsed
  cases hparse : Syntax.parse text with
  | error e =>
    unfold Load.text
    rw [hparse]
    rfl
  | ok program =>
    rw [Load.text_eq _ _ _ hparse]
    rfl

/-- Below the greatest depth the load of a source opens it and runs it at the next depth. -/
theorem source_eq (engine : Construct.Engine) {depth : Nat} (hdepth : depth < maxIncludeDepth)
    (source : TextSource) (l : Loading) :
    outcome (Load.source engine (maxIncludeDepth - depth) source) l =
      match opened l.trail.machine source with
      | .error e => (.error e, l)
      | .ok t => outcome (t.run engine (depth + 1)) l := by
  rw [Load.source_at engine hdepth]
  unfold opened
  cases Load.fetch l.trail.machine source with
  | error e => rfl
  | ok fetched => exact text_eq engine (depth + 1) source.text fetched l

end OpenText

/-- An include whose source is being loaded, and the text in which it stands. -/
structure OpenInclude where
  span : Source.Span
  source : TextSource
  around : OpenText

/-- A load under way: the text in which it is, and the open includes, the innermost one first. -/
structure Walk where
  current : OpenText
  includes : List OpenInclude
  loading : Loading

/-- What a step leads to. -/
inductive Progress where
  | running (walk : Walk)
  | ended (result : Except LoadError Unit) (loading : Loading)

namespace Walk

/-- An error in the innermost source as an error of the outermost text. -/
def unwind : List OpenInclude → LoadError → LoadError
  | [], error => error
  | i :: includes, error =>
    unwind includes
      (Located.inText i.around.origin i.around.text ⟨i.span, .inclusion i.source error⟩)

/-- Ends with a fault in the current text. -/
def fail (w : Walk) (located : Located) (l : Loading) : Progress :=
  .ended (.error (unwind w.includes (located.inText w.current.origin w.current.text))) l

/-- Leaves some statements of the current text for later. -/
def keep (w : Walk) (pending : Syntax.Program) : OpenText := { w.current with pending := pending }

/-- Opens the source of an include, unless that makes too many. -/
def enter (w : Walk) (span : Source.Span) (source : TextSource) (rest : Syntax.Program)
    (l : Loading) : Progress :=
  if maxIncludeDepth < w.includes.length + 1 then w.fail ⟨span, .inclusion source .tooDeep⟩ l
  else
    match OpenText.opened l.trail.machine source with
    | .error error => w.fail ⟨span, .inclusion source error⟩ l
    | .ok text => .running ⟨text, ⟨span, source, w.keep rest⟩ :: w.includes, l⟩

/-- Runs the next statement of the current text, or leaves the text if there is none. -/
def step (engine : Construct.Engine) (w : Walk) : Progress :=
  match w.current.pending with
  | [] =>
    match w.includes with
    | [] => .ended (.ok ()) w.loading
    | i :: includes => .running ⟨i.around, includes, w.loading⟩
  | ⟨.include e, span⟩ :: rest =>
    match outcome (e.named engine) w.loading with
    | (.error located, l) => w.fail located l
    | (.ok source, l) => w.enter span source rest l
  | s :: rest =>
    match outcome (s.run engine (Load.source engine 0)) w.loading with
    | (.error located, l) => w.fail located l
    | (.ok (), l) => .running ⟨w.keep rest, w.includes, l⟩

/-- Takes some steps. -/
def steps (engine : Construct.Engine) : Nat → Walk → Progress
  | 0, w => .running w
  | n + 1, w =>
    match w.step engine with
    | .running w' => steps engine n w'
    | ended => ended

end Walk

namespace Walk

variable {engine : Construct.Engine} {origin text : String} {includes : List OpenInclude}
  {s : Syntax.Statement} {rest : Syntax.Program} {l : Loading}

end Walk

namespace Entry

/-- The text at which a load begins. -/
def opened (m : Machine) : Entry → Except LoadError OpenText
  | .text source => OpenText.parsed "string" source
  | .bytes content =>
    match File.Tree.decode content with
    | .error e => .error (.unreadable "stream" e)
    | .ok source => OpenText.parsed "stream" source
  | .resource name => OpenText.opened m (.resource name)
  | .path file => OpenText.opened m (.file file)
  | .url address => OpenText.opened m (.url address)

/-- What the text of an entry is called in messages. -/
def title : Entry → String
  | .text _ => "string"
  | .bytes _ => "stream"
  | .resource name => (TextSource.resource name).text
  | .path file => (TextSource.file file).text
  | .url address => (TextSource.url address).text

/-- The text of an entry. -/
def fetched (m : Machine) : Entry → Except LoadError String
  | .text source => .ok source
  | .bytes content => (File.Tree.decode content).mapError (.unreadable "stream")
  | .resource name => Load.fetch m (.resource name)
  | .path file => Load.fetch m (.file file)
  | .url address => Load.fetch m (.url address)

/-- A load begins at the text of its entry. -/
theorem opened_eq (m : Machine) (entry : Entry) :
    entry.opened m = entry.fetched m >>= OpenText.parsed entry.title := by
  cases entry with
  | bytes content =>
    simp only [opened, fetched]
    cases File.Tree.decode content <;> rfl
  | _ => rfl

/-- A text that has been fetched is opened if it parses. -/
theorem opened_of_fetched {entry : Entry} {m : Machine} {text : String}
    (h : entry.fetched m = .ok text) : entry.opened m = OpenText.parsed entry.title text := by
  rw [opened_eq, h]
  rfl

/-- The statements with which a load begins are those of a text. -/
theorem parse_opened {entry : Entry} {m : Machine} {t : OpenText} (h : entry.opened m = .ok t) :
    Syntax.parse t.text = .ok t.pending := by
  rw [opened_eq] at h
  cases hfetched : entry.fetched m with
  | error e =>
    rw [hfetched] at h
    cases h
  | ok text =>
    rw [hfetched] at h
    obtain ⟨_, rfl, hparse⟩ := OpenText.parsed_eq_ok h
    exact hparse

/-- What a load does when its text has been run. -/
def close : Entry → Load Unit
  | .path file => Load.putLocation file
  | _ => return

/-- Closing does not fail. -/
theorem close_ok (entry : Entry) (l : Loading) : (outcome entry.close l).1 = .ok () := by
  cases entry <;> rfl

/-- What a load leaves where the walk through its text has ended. -/
def closed (entry : Entry) (result : Except LoadError Unit) (l : Loading) : Loading :=
  match result with
  | .ok () => (outcome entry.close l).2
  | .error _ => l

/-- The load of a source at the entry opens it and runs it outside all includes. -/
theorem source_eq (engine : Construct.Engine) (source : TextSource) (l : Loading) :
    outcome (Load.source engine (maxIncludeDepth + 1) source) l =
      match OpenText.opened l.trail.machine source with
      | .error e => (.error e, l)
      | .ok t => outcome (t.run engine 0) l := by
  rw [Load.source, outcome_bind_ok (outcome_get l), OpenText.opened]
  cases Load.fetch l.trail.machine source with
  | error e => rfl
  | ok fetched => exact OpenText.text_eq engine 0 source.text fetched l

/-- A load opens its text, runs it outside all includes, and closes. -/
theorem load_eq (engine : Construct.Engine) (entry : Entry) (l : Loading) :
    outcome (entry.load engine) l =
      match entry.opened l.trail.machine with
      | .error e => (.error e, l)
      | .ok t => outcome (t.run engine 0 >>= fun _ => entry.close) l := by
  have hclose {x : Load Unit} (close : Load Unit) : ∀ t : Except LoadError OpenText,
      (outcome x l = match t with
        | .error e => (.error e, l)
        | .ok t => outcome (t.run engine 0) l) →
      outcome (x >>= fun _ => close) l = match t with
        | .error e => (.error e, l)
        | .ok t => outcome (t.run engine 0 >>= fun _ => close) l := by
    intro t hx
    rw [outcome_bind, hx]
    cases t with
    | error e => rfl
    | ok t => exact (outcome_bind _ _ _).symm
  have hpure (x : Load Unit) : outcome x l = outcome (x >>= fun _ => pure ()) l := by
    rw [bind_pure_unit]
  cases entry with
  | text source =>
    exact (hpure _).trans (hclose _ _ (OpenText.text_eq engine 0 "string" source l))
  | bytes content =>
    simp only [load, opened]
    cases File.Tree.decode content with
    | error e => rfl
    | ok source => exact (hpure _).trans (hclose _ _ (OpenText.text_eq engine 0 "stream" source l))
  | resource name => exact (hpure _).trans (hclose _ _ (source_eq engine _ l))
  | path file => exact hclose _ _ (source_eq engine _ l)
  | url address => exact (hpure _).trans (hclose _ _ (source_eq engine _ l))

end Entry

namespace Store

/-- A load whose text cannot be opened leaves the store as it is. -/
theorem load_unopened {engine : Construct.Engine} {m : Machine} {entry : Entry} {e : LoadError}
    (s : Store) (h : entry.opened m = .error e) : s.load engine m entry = ⟨.error e, s, m, []⟩ := by
  have hload := entry.load_eq engine ⟨s, m, []⟩
  simp only [h] at hload
  rw [load_eq, hload]

/-- A load runs the text that it has opened, and closes where that succeeds. -/
theorem load_opened {engine : Construct.Engine} {m : Machine} {entry : Entry} {t : OpenText}
    {s : Store} {result : Except LoadError Unit} {l : Loading} (hopened : entry.opened m = .ok t)
    (hrun : outcome (t.run engine 0) ⟨s, m, []⟩ = (result, l)) :
    (s.load engine m entry).result = result ∧
      (s.load engine m entry).store = (entry.closed result l).store := by
  have hload := entry.load_eq engine ⟨s, m, []⟩
  simp only [hopened, outcome_bind, hrun] at hload
  rw [load_eq, hload]
  cases result with
  | error e => exact ⟨rfl, rfl⟩
  | ok _ => exact ⟨entry.close_ok l, rfl⟩

end Store

end TypedConfig
