import TypedConfig.Proofs.Coverage
import TypedConfig.Proofs.Places

/-!
# Spans of a tree

The nodes of a program are its statements, their expressions and the names in them. Each stands on
tokens of the text that follow one another, and its children stand on some of these, one behind the
other. As tokens take up bytes and are in order, a node spans the bytes from its first token to its
last: it is never empty, it contains its children, and they do not overlap.
-/

namespace TypedConfig.Syntax

open Source (Span byteLength boundaries)

/-- A node of a program: a statement, an expression, or a name that is no variable, namely the key
that is set, the key of a named argument, or the name of a type. -/
inductive Node where
  | statement (s : Statement)
  | expression (e : Expr)
  | name (n : Name)

namespace Node

/-- The text that a node was read from. -/
def span : Node → Span
  | .statement s => s.span
  | .expression e => e.span
  | .name n => n.span

/-- The name and the value of a named argument. -/
def ofNamed (entry : Name × Expr) : List Node := [.name entry.1, .expression entry.2]

/-- The nodes that a node is put together from, as they follow in the text. -/
def children : Node → List Node
  | .statement ⟨.set key value, _⟩ | .statement ⟨.default key value, _⟩ =>
    [.name key, .expression value]
  | .statement ⟨.include source, _⟩ => [.expression source]
  | .expression (.literal _ _) | .expression (.variable _ _) => []
  | .expression (.concat left right _) => [.expression left, .expression right]
  | .expression (.array tag items _) => tag.toList.map .name ++ items.map .expression
  | .expression (.construct type arguments named _) =>
    .name type :: (arguments.map .expression ++ named.flatMap ofNamed)
  | .name _ => []

/-- A node that occurs in a program, at whatever depth. -/
inductive OccursIn (p : Program) : Node → Prop
  | statement {s} : s ∈ p → OccursIn p (.statement s)
  | child {n m} : OccursIn p n → m ∈ n.children → OccursIn p m

/-- The tokens that a node is read from. Those of a statement are the ones up to its semicolon. -/
def Stands (ts : List Token) : Node → Prop
  | .statement s => Derives ts (.statement s)
  | .expression e => Derives ts (.expression e)
  | .name n => ts = [⟨.key n.text, n.span⟩]

/-- Nodes that stand on tokens one behind the other, with other tokens around them. -/
inductive Laid : List Token → List Node → Prop
  | nil : Laid [] []
  | token {t ts ns} : Laid ts ns → Laid (t :: ts) ns
  | node {ts us n ns} : Stands ts n → Laid us ns → Laid (ts ++ us) (n :: ns)

end Node

/-- A list of the grammar as the nodes it consists of. -/
def Phrase.nodes : Phrase → List Node
  | .items es | .arguments es | .elements es => es.map .expression
  | .named given => given.flatMap Node.ofNamed
  | .statements ss | .program ss => ss.map .statement
  | .operand _ | .expression _ | .statement _ => []

/-- A span that begins with the first of the tokens and ends with the last of them. -/
def SpansTokens (ts : List Token) (span : Span) : Prop :=
  ∃ first last, ts.head? = some first ∧ ts.getLast? = some last ∧
    span = ⟨first.span.start, last.span.stop⟩

/-- Tokens that take up bytes, one behind the other. -/
structure InOrder (ts : List Token) : Prop where
  nonempty : ∀ t ∈ ts, t.span.start < t.span.stop
  ordered : ts.Pairwise fun t u => t.span.stop ≤ u.span.start

variable {ts us before after : List Token} {n m : Node} {ns ms : List Node}

namespace Node

/-- No nodes stand on any tokens. -/
theorem Laid.empty (ts : List Token) : Laid ts [] := by
  induction ts with
  | nil => exact .nil
  | cons t ts ih => exact ih.token

/-- Nodes of two parts stand one behind the other. -/
theorem Laid.append (h : Laid ts ns) (h' : Laid us ms) : Laid (ts ++ us) (ns ++ ms) := by
  induction h with
  | nil => exact h'
  | token _ ih => exact ih.token
  | node hn _ ih =>
    rw [List.append_assoc]
    exact .node hn ih

/-- Nodes stand on the front of longer tokens. -/
theorem Laid.front (h : Laid ts ns) (us : List Token) : Laid (ts ++ us) ns := by
  have happend := h.append (.empty us)
  rwa [List.append_nil] at happend

/-- One node stands for itself. -/
theorem Stands.laid (h : Stands ts n) : Laid ts [n] := by
  have hlaid := Laid.node h .nil
  rwa [List.append_nil] at hlaid

/-- Each of the nodes stands on some of the tokens. -/
theorem Laid.exists_of_mem (h : Laid ts ns) (hn : n ∈ ns) :
    ∃ before us after, ts = before ++ us ++ after ∧ Stands us n := by
  induction h with
  | nil => cases hn
  | @token t _ _ _ ih =>
    obtain ⟨before, us, after, rfl, hus⟩ := ih hn
    exact ⟨t :: before, us, after, rfl, hus⟩
  | @node vs ws _ _ hm _ ih =>
    rcases List.mem_cons.mp hn with rfl | hn
    · exact ⟨[], vs, ws, rfl, hm⟩
    · obtain ⟨before, us, after, rfl, hus⟩ := ih hn
      exact ⟨vs ++ before, us, after, by simp only [List.append_assoc], hus⟩

end Node

open Node

/-- An expression stands on the tokens that it is read from. -/
theorem Derives.laid_expression {e : Expr} (h : Derives ts (.expression e)) :
    Laid ts [.expression e] :=
  Stands.laid (n := .expression e) h

/-- The grammar puts the nodes of a list one behind the other. -/
theorem Derives.laid {phrase : Phrase} (h : Derives ts phrase) : Laid ts phrase.nodes := by
  induction h with
  | firstItem he _ => exact he.laid_expression
  | nextItem _ he ih _ =>
    rw [Phrase.nodes, List.map_append]
    exact ih.append (.token he.laid_expression)
  | someArguments _ ih | someElements _ ih => exact ih
  | lastComma _ ih => exact ih.front _
  | @firstNamed key span _ _ _ he _ =>
    exact .node (n := .name ⟨key, span⟩) rfl (.token he.laid_expression)
  | @nextNamed _ _ _ key span _ _ _ _ he ih _ =>
    rw [Phrase.nodes, List.flatMap_append]
    exact ih.append (.token (.node (n := .name ⟨key, span⟩) rfl (.token he.laid_expression)))
  | nextStatement _ hs ih _ =>
    rw [Phrase.nodes, List.map_append]
    exact ih.append (Stands.laid hs)
  | program _ ih => exact ih.front _
  | _ => exact .empty _

/-- The children of a node stand on its tokens, one behind the other. -/
theorem Node.Stands.children (h : Stands ts n) : Laid ts n.children := by
  cases n with
  | statement s =>
    cases h with
    | @set key span _ _ _ _ _ he | @default key span _ _ _ _ _ he =>
      exact .node (n := .name ⟨key, span⟩) rfl (.token (he.laid_expression.front _))
    | inclusion he => exact .token (he.laid_expression.front _)
  | expression e =>
    cases h with
    | single he =>
      cases he with
      | literal | key => exact .empty _
      | @construct name span _ _ _ _ harguments =>
        rw [children, List.flatMap_nil, List.append_nil]
        exact .node (n := .name ⟨name, span⟩) rfl (.token (harguments.laid.front _))
      | @constructNamed name span _ _ _ _ _ _ _ _ harguments hnamed =>
        refine .node (n := .name ⟨name, span⟩) rfl (.token ?_)
        exact harguments.laid.append (.token (.token (hnamed.laid.front _)))
      | array hitems => exact .token (hitems.laid.front _)
      | @typedArray name span _ _ _ _ hitems =>
        exact .node (n := .name ⟨name, span⟩) rfl (.token (hitems.laid.front _))
    | concat hleft hright =>
      exact hleft.laid_expression.append (.token (Derives.single hright).laid_expression)
  | name => exact .empty _

/-- All nodes of a program stand on tokens of the program that follow one another. -/
theorem Node.OccursIn.stands {p : Program} (h : OccursIn p n) (hp : Laid ts (p.map .statement)) :
    ∃ before us after, ts = before ++ us ++ after ∧ Stands us n := by
  induction h with
  | statement hs => exact hp.exists_of_mem (List.mem_map_of_mem hs)
  | child _ hm ih =>
    obtain ⟨before, us, after, rfl, hus⟩ := ih
    obtain ⟨before', vs, after', rfl, hvs⟩ := hus.children.exists_of_mem hm
    exact ⟨before ++ before', vs, after' ++ after, by simp only [List.append_assoc], hvs⟩

section Exact

variable {span other : Span}

/-- Fewer tokens are in order. -/
theorem InOrder.sublist (h : InOrder us) (hsub : ts.Sublist us) : InOrder ts :=
  ⟨fun t ht => h.nonempty t (hsub.subset ht), h.ordered.sublist hsub⟩

/-- Tokens between others are in order. -/
theorem InOrder.inner (h : InOrder (before ++ ts ++ after)) : InOrder ts :=
  h.sublist ((List.sublist_append_right before ts).trans (List.sublist_append_left _ after))

/-- A token spans itself. -/
theorem spansTokens_singleton (t : Token) : SpansTokens [t] t.span := ⟨t, t, rfl, rfl, rfl⟩

/-- What tokens in order span together, whatever may be between them. -/
theorem SpansTokens.merge {between : List Token} (hspan : SpansTokens ts span)
    (hother : SpansTokens us other) (horder : InOrder (ts ++ between ++ us)) :
    SpansTokens (ts ++ between ++ us) (span.merge other) := by
  obtain ⟨first, last, hfirst, hlast, rfl⟩ := hspan
  obtain ⟨first', last', hfirst', hlast', rfl⟩ := hother
  have hmem := List.mem_of_head? hfirst
  have hmem' := List.mem_of_getLast? hlast'
  obtain ⟨-, -, hapart⟩ := List.pairwise_append.mp horder.ordered
  have hstart := hapart first (List.mem_append_left _ hmem) first' (List.mem_of_head? hfirst')
  have hstop := hapart last (List.mem_append_left _ (List.mem_of_getLast? hlast)) last' hmem'
  have hpos := horder.nonempty first (List.mem_append_left _ (List.mem_append_left _ hmem))
  have hpos' := horder.nonempty last' (List.mem_append_right _ hmem')
  refine ⟨first, last', ?_, ?_, ?_⟩
  · rw [List.append_assoc, List.head?_append, hfirst]
    rfl
  · rw [List.getLast?_append, hlast']
    rfl
  · have hmin : min first.span.start first'.span.start = first.span.start := by omega
    have hmax : max last.span.stop last'.span.stop = last'.span.stop := by omega
    rw [Span.merge, hmin, hmax]

/-- What is put together of tokens in order spans the first of them to the last. -/
theorem spansTokens_whole (first last : Token) (between : List Token)
    (horder : InOrder (first :: (between ++ [last]))) :
    SpansTokens (first :: (between ++ [last])) (first.span.merge last.span) :=
  (spansTokens_singleton first).merge (spansTokens_singleton last) horder

/-- A node of the grammar spans its tokens. -/
def Phrase.SpansTokens (ts : List Token) : Phrase → Prop
  | .operand e | .expression e => Syntax.SpansTokens ts e.span
  | .statement s => Syntax.SpansTokens ts s.span
  | _ => True

/-- A phrase spans the tokens that it is read from. -/
theorem Derives.spansTokens {phrase : Phrase} (h : Derives ts phrase) (horder : InOrder ts) :
    phrase.SpansTokens ts := by
  induction h with
  | @literal value span => exact spansTokens_singleton ⟨value.token, span⟩
  | @key name span => exact spansTokens_singleton ⟨.key name, span⟩
  | @construct name span start ts _ stop =>
    exact spansTokens_whole ⟨.key name, span⟩ ⟨.closeParen, stop⟩ (⟨.openParen, start⟩ :: ts) horder
  | @constructNamed name span start ts _ close start' us _ stop =>
    have hwhole := spansTokens_whole ⟨.key name, span⟩ ⟨.closeBracket, stop⟩
      (⟨.openParen, start⟩ :: (ts ++ ⟨.closeParen, close⟩ :: ⟨.openBracket, start'⟩ :: us))
    simp only [List.cons_append, List.append_assoc] at hwhole
    exact hwhole horder
  | @array start ts _ stop =>
    exact spansTokens_whole ⟨.openBrace, start⟩ ⟨.closeBrace, stop⟩ ts horder
  | @typedArray name span start ts _ stop =>
    exact spansTokens_whole ⟨.key name, span⟩ ⟨.closeBrace, stop⟩ (⟨.openBrace, start⟩ :: ts) horder
  | single _ ih => exact ih horder
  | @concat ts _ caret us _ _ _ ihleft ihright =>
    have hleft := ihleft (horder.sublist (List.sublist_append_left ts _))
    have hright := ihright (horder.sublist ((List.sublist_cons_self _ us).trans
      (List.sublist_append_right ts _)))
    rw [List.append_cons] at horder ⊢
    exact hleft.merge hright horder
  | @set key span equals ts _ stop =>
    exact spansTokens_whole ⟨.key key, span⟩ ⟨.semicolon, stop⟩ (⟨.equals, equals⟩ :: ts) horder
  | @default key span tilde ts _ stop =>
    exact spansTokens_whole ⟨.key key, span⟩ ⟨.semicolon, stop⟩ (⟨.tilde, tilde⟩ :: ts) horder
  | @inclusion start ts _ stop =>
    exact spansTokens_whole ⟨.include, start⟩ ⟨.semicolon, stop⟩ ts horder
  | _ => trivial

/-- A node spans the tokens on which it stands. -/
theorem Node.Stands.spansTokens (h : Stands ts n) (horder : InOrder ts) :
    SpansTokens ts n.span := by
  cases n with
  | statement | expression => exact Derives.spansTokens h horder
  | name key =>
    obtain rfl := h
    exact spansTokens_singleton _

/-- A span of tokens in order contains each of them. -/
theorem SpansTokens.contains (h : SpansTokens ts span) (horder : InOrder ts) {t : Token}
    (ht : t ∈ ts) : t.span.Within span := by
  obtain ⟨first, last, hfirst, hlast, rfl⟩ := h
  obtain ⟨rest, rfl⟩ := List.head?_eq_some_iff.mp hfirst
  obtain ⟨front, hfront⟩ := List.getLast?_eq_some_iff.mp hlast
  constructor
  · obtain ⟨hbehind, -⟩ := List.pairwise_cons.mp horder.ordered
    rcases List.mem_cons.mp ht with rfl | hlater
    · exact Nat.le_refl _
    · have hpos := horder.nonempty first (.head _)
      exact Nat.le_trans hpos.le (hbehind t hlater)
  · rw [hfront] at ht horder
    obtain ⟨-, -, hapart⟩ := List.pairwise_append.mp horder.ordered
    rcases List.mem_append.mp ht with hearlier | hlast
    · have hpos := horder.nonempty last (List.mem_append_right _ (.head _))
      exact Nat.le_trans (hapart t hearlier last (.head _)) hpos.le
    · obtain rfl := List.mem_singleton.mp hlast
      exact Nat.le_refl _

/-- What spans tokens is made of them. -/
theorem SpansTokens.madeOf (h : SpansTokens ts span) : MadeOf ts span := by
  obtain ⟨first, last, hfirst, hlast, rfl⟩ := h
  exact ⟨⟨first, List.mem_of_head? hfirst, rfl⟩, last, List.mem_of_getLast? hlast, rfl⟩

/-- What spans tokens takes up bytes. -/
theorem SpansTokens.start_lt_stop (h : SpansTokens ts span) (horder : InOrder ts) :
    span.start < span.stop := by
  obtain ⟨first, last, hfirst, hlast, rfl⟩ := h
  have hmem := List.mem_of_head? hfirst
  have hlt := horder.nonempty first hmem
  have hle := (SpansTokens.contains ⟨first, last, hfirst, hlast, rfl⟩ horder hmem).2
  exact Nat.lt_of_lt_of_le hlt hle

/-- What tokens make up lies inside the span of all of them. -/
theorem MadeOf.within_spansTokens (h : MadeOf ts other) (hspan : SpansTokens ts span)
    (horder : InOrder ts) : other.Within span := by
  obtain ⟨⟨t, ht, hstart⟩, u, hu, hstop⟩ := h
  refine ⟨?_, ?_⟩
  · rw [hstart]
    exact (hspan.contains horder ht).1
  · rw [hstop]
    exact (hspan.contains horder hu).2

/-- Nodes are made of the tokens on which they stand. -/
theorem Node.Laid.madeOf (h : Laid ts ns) (horder : InOrder ts) (hn : n ∈ ns) :
    MadeOf ts n.span := by
  obtain ⟨before, us, after, rfl, hus⟩ := h.exists_of_mem hn
  exact (hus.spansTokens horder.inner).madeOf.mono fun t ht =>
    List.mem_append_left _ (List.mem_append_right _ ht)

/-- Nodes that are laid one behind the other do not overlap. -/
theorem Node.Laid.pairwise (h : Laid ts ns) (horder : InOrder ts) :
    ns.Pairwise fun n m => n.span.stop ≤ m.span.start := by
  induction h with
  | nil => exact .nil
  | token _ ih => exact ih (horder.sublist (List.sublist_cons_self _ _))
  | @node ts us n ns hn hns ih =>
    have hfront := horder.sublist (List.sublist_append_left ts us)
    have hrear := horder.sublist (List.sublist_append_right ts us)
    refine List.pairwise_cons.mpr ⟨fun m hm => ?_, ih hrear⟩
    obtain ⟨-, t, ht, hstop⟩ := (hn.spansTokens hfront).madeOf
    obtain ⟨⟨u, hu, hstart⟩, -⟩ := hns.madeOf hrear hm
    obtain ⟨-, -, hapart⟩ := List.pairwise_append.mp horder.ordered
    rw [hstop, hstart]
    exact hapart t ht u hu

end Exact

section Texts

variable {text : String} {p : Program}

/-- The tokens in front of another one, in a text whose offsets all fit. -/
theorem inOrder_of_lex {body rest : List Token} {u : Token}
    (hsmall : byteLength text.toList < 2 ^ 32) (hlex : lex text = body ++ u :: rest) :
    InOrder body ∧ ∀ t ∈ body, t.span.stop ≤ byteLength text.toList := by
  have hcut : Token.CutInto 0 text.toList (lex text) :=
    Token.scan_cutInto 0 text.toList (by rw [Nat.zero_add]; exact Nat.le_of_lt_succ hsmall)
  rw [hlex] at hcut
  have hspans := fun t ht => hcut.spans t (List.mem_append_left _ ht)
  refine ⟨⟨fun t ht => ?_, (List.pairwise_append.mp hcut.ordered).1⟩, fun t ht => ?_⟩
  · obtain ⟨-, -, hpos⟩ := hspans t ht
    rwa [if_neg (hcut.kind_ne_endOfInput t ht)] at hpos
  · obtain ⟨-, hstop, -⟩ := hspans t ht
    have hrange := (Source.boundaries_mem_range 0 text.toList _ hstop).2
    rwa [Nat.zero_add] at hrange

/-- The statements of a text stand one behind the other, up to the end of the text. -/
theorem laid_of_parse (hparse : parse text = .ok p) :
    ∃ body u rest, lex text = body ++ u :: rest ∧ Laid body (p.map .statement) := by
  obtain ⟨read, rest, hlex, hderives⟩ := derives_of_parseTokens hparse
  cases hderives with
  | @program body _ stop hstatements =>
    refine ⟨body, ⟨.endOfInput, stop⟩, rest, ?_, hstatements.laid⟩
    rw [hlex, List.append_assoc]
    rfl

/-- The last token of a statement is a semicolon. -/
theorem Derives.ends_in_semicolon {s : Statement} (h : Derives ts (.statement s)) :
    ∃ front stop, ts = front ++ [⟨.semicolon, stop⟩] := by
  cases h with
  | @set key span equals ts _ stop => exact ⟨⟨.key key, span⟩ :: ⟨.equals, equals⟩ :: ts, stop, rfl⟩
  | @default key span tilde ts _ stop =>
    exact ⟨⟨.key key, span⟩ :: ⟨.tilde, tilde⟩ :: ts, stop, rfl⟩
  | @inclusion start ts _ stop => exact ⟨⟨.include, start⟩ :: ts, stop, rfl⟩

/-- The spans of a tree are exact and nested. A node of a program spans the tokens that it is read
from, from the start of the first to the end of the last, which is the semicolon for a statement. So
it takes up bytes of the text and its length is what is between its ends; its children lie inside
it, in the order of the text and apart from each other, and so do the statements of the program. -/
theorem parse_spans_nested (hsmall : byteLength text.toList < 2 ^ 32)
    (hparse : parse text = .ok p) :
    (∀ n, OccursIn p n →
      (∃ before ts after, lex text = before ++ ts ++ after ∧ Stands ts n ∧
        SpansTokens ts n.span) ∧
      n.span.start < n.span.stop ∧ n.span.stop ≤ byteLength text.toList ∧
      n.span.start + n.span.length = n.span.stop ∧
      (∀ m ∈ n.children, m.span.Within n.span) ∧
      n.children.Pairwise fun m m' => m.span.stop ≤ m'.span.start) ∧
    (∀ s ∈ p, ∃ front semicolon rest, lex text = front ++ ⟨.semicolon, semicolon⟩ :: rest ∧
      s.span.stop = semicolon.stop) ∧
    p.Pairwise fun s s' => s.span.stop ≤ s'.span.start := by
  obtain ⟨body, u, rest, hlex, hlaid⟩ := laid_of_parse hparse
  obtain ⟨horder, hbound⟩ := inOrder_of_lex hsmall hlex
  refine ⟨fun n hn => ?_, fun s hs => ?_, List.pairwise_map.mp (hlaid.pairwise horder)⟩
  · obtain ⟨before, ts, after, rfl, hstands⟩ := hn.stands hlaid
    have hspan := hstands.spansTokens horder.inner
    have hpos := hspan.start_lt_stop horder.inner
    obtain ⟨-, t, ht, hstop⟩ := hspan.madeOf
    refine ⟨⟨before, ts, after ++ u :: rest, ?_, hstands, hspan⟩, hpos, ?_, ?_, fun m hm => ?_, ?_⟩
    · rw [hlex, List.append_assoc]
    · rw [hstop]
      exact hbound t (List.mem_append_left _ (List.mem_append_right _ ht))
    · exact Nat.add_sub_cancel' hpos.le
    · exact (hstands.children.madeOf horder.inner hm).within_spansTokens hspan horder.inner
    · exact hstands.children.pairwise horder.inner
  · obtain ⟨before, ts, after, rfl, hstands⟩ := hlaid.exists_of_mem (List.mem_map_of_mem hs)
    obtain ⟨front, semicolon, rfl⟩ := Derives.ends_in_semicolon hstands
    obtain ⟨_, last, _, hlast, hspan⟩ := hstands.spansTokens horder.inner
    obtain rfl : ⟨.semicolon, semicolon⟩ = last := by simpa using hlast
    change s.span = ⟨_, semicolon.stop⟩ at hspan
    refine ⟨before ++ front, semicolon, after ++ u :: rest, ?_, by rw [hspan]⟩
    rw [hlex]
    simp only [List.append_assoc, List.cons_append, List.nil_append]

/-- A typed array with a comma behind its last item, a construction with a named argument, and a
text of more bytes than characters. -/
theorem parse_spans_nested_sample :
    let text := "x = F\x7ba ^ 'é',\x7d;\ninclude T()[k = x];"
    let sum : Expr := .concat (.variable "a" ⟨6, 7⟩) (.literal (.string "é") ⟨10, 14⟩) ⟨6, 14⟩
    let array : Expr := .array (some ⟨"F", ⟨4, 5⟩⟩) [sum] ⟨4, 16⟩
    let call : Expr := .construct ⟨"T", ⟨26, 27⟩⟩ []
      [(⟨"k", ⟨30, 31⟩⟩, .variable "x" ⟨34, 35⟩)] ⟨26, 36⟩
    let p : Program := [⟨.set ⟨"x", ⟨0, 1⟩⟩ array, ⟨0, 17⟩⟩, ⟨.include call, ⟨18, 37⟩⟩]
    byteLength text.toList < 2 ^ 32 ∧ parse text = .ok p ∧
      (Node.expression sum).children.Pairwise (fun m m' => m.span.stop ≤ m'.span.start) ∧
      (∀ m ∈ (Node.expression call).children, m.span.Within call.span) ∧
      p.Pairwise fun s s' => s.span.stop ≤ s'.span.start := by
  intro text sum array call p
  have hsmall : byteLength text.toList < 2 ^ 32 := by decide
  have hlex : lex text = [⟨.key "x", ⟨0, 1⟩⟩, ⟨.equals, ⟨2, 3⟩⟩, ⟨.key "F", ⟨4, 5⟩⟩,
      ⟨.openBrace, ⟨5, 6⟩⟩, ⟨.key "a", ⟨6, 7⟩⟩, ⟨.caret, ⟨8, 9⟩⟩, ⟨.string "é", ⟨10, 14⟩⟩,
      ⟨.comma, ⟨14, 15⟩⟩, ⟨.closeBrace, ⟨15, 16⟩⟩, ⟨.semicolon, ⟨16, 17⟩⟩, ⟨.include, ⟨18, 25⟩⟩,
      ⟨.key "T", ⟨26, 27⟩⟩, ⟨.openParen, ⟨27, 28⟩⟩, ⟨.closeParen, ⟨28, 29⟩⟩,
      ⟨.openBracket, ⟨29, 30⟩⟩, ⟨.key "k", ⟨30, 31⟩⟩, ⟨.equals, ⟨32, 33⟩⟩, ⟨.key "x", ⟨34, 35⟩⟩,
      ⟨.closeBracket, ⟨35, 36⟩⟩, ⟨.semicolon, ⟨36, 37⟩⟩, ⟨.endOfInput, ⟨37, 37⟩⟩] := by
    decide +kernel
  have hparse : parse text = .ok p := by
    rw [parse, hlex]
    rfl
  obtain ⟨hnodes, -, hstatements⟩ := parse_spans_nested hsmall hparse
  have harray : OccursIn p (.expression array) := .child (.statement (.head _)) (.tail _ (.head _))
  have hcall : OccursIn p (.expression call) :=
    .child (.statement (.tail _ (.head _))) (.head _)
  obtain ⟨-, -, -, -, -, hsum⟩ := hnodes (.expression sum) (.child harray (.tail _ (.head _)))
  obtain ⟨-, -, -, -, hinside, -⟩ := hnodes (.expression call) hcall
  exact ⟨hsmall, hparse, hsum, hinside, hstatements⟩

end Texts

end TypedConfig.Syntax
