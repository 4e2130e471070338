import ConsoleSweep.Yaml.Token

/-!
# Nodes

The tree that a sequence of tokens describes. Where the tokens stop making sense the tree has a
`broken` node, and what stands before it in the text is kept: a reader of the tree meets a fault
only when it gets there.

Every reading function gives what it read together with the state after it or the fault that ended
the reading, so that a fault never loses the part of the tree before it.
-/

namespace ConsoleSweep.Yaml

/-- A node of a document. -/
inductive Node where
  /-- A text. A plain one has no quotes and is on lines of its own only by accident. -/
  | scalar (start : Mark) (anchor : Option Nat) (tag : Option Bytes) (plain : Bool) (text : String)
  | sequence (start : Mark) (anchor : Option Nat) (tag : Option Bytes) (items : List Node)
  | mapping (start : Mark) (anchor : Option Nat) (tag : Option Bytes) (entries : List (Node × Node))
  /-- A node that stands elsewhere: the last one with this anchor. -/
  | «alias» (start : Mark) (anchor : Nat)
  /-- What could not be read. -/
  | broken
  deriving Repr, Inhabited

namespace Node

/-- An empty text, which stands for a node that is left out. -/
def omitted (start : Mark) : Node := .scalar start none none true ""

/-- What an anchor and a tag say about the node after them, and where they start. -/
structure Properties where
  start : Mark
  anchor : Option String
  tag : Option Bytes
  deriving DecidableEq, Repr, Inhabited

/-- How far the tokens have been read. -/
structure State where
  tokens : List Token
  /-- Why there are no more tokens. -/
  fault : Fault
  /-- The names of anchors so far, each with the number of its last use. -/
  names : List (String × Nat)
  deriving Repr, Inhabited

namespace State

/-- The next token. -/
def peek (s : State) : Except Fault Token :=
  match s.tokens with
  | token :: _ => .ok token
  | [] => .error s.fault

/-- The state after the next token. -/
def skip (s : State) : State := { s with tokens := s.tokens.drop 1 }

/-- Whether the next token, if there is one, is one of the given kind. -/
def upcoming (s : State) (p : Symbol → Bool) : Bool := s.tokens.head?.any (p ·.symbol)

/-- Gives an anchor its number, which is the number of names before it. -/
def nameAnchor (s : State) : Option String → Option Nat × State
  | none => (none, s)
  | some name =>
    let number := s.names.length
    let others := s.names.filter (·.1 ≠ name)
    (some number, { s with names := others ++ [(name, number)] })

end State

/-- What has been read, and how the reading goes on. -/
abbrev Reading (α : Type) := α × Except Fault State

/-- Ends a reading with a fault. -/
def stop {α : Type} (partly : α) (fault : Fault) : Reading α := (partly, .error fault)

/-- Goes on after a reading, unless it has ended. -/
def Reading.andThen {α β : Type} (r : Reading α) (partly : α → β) (next : α → State → Reading β) :
    Reading β :=
  match r.2 with
  | .ok s => next r.1 s
  | .error fault => (partly r.1, .error fault)

/-- The entries of a mapping that breaks off before the next key. -/
def brokenEntries : List (Node × Node) := [(.broken, .broken)]

/-- Where a node stands, as far as it matters to what it may be. -/
structure Position where
  /-- Outside of brackets. -/
  block : Bool
  /-- Right below a key, where the entries of a sequence need no indentation. -/
  belowKey : Bool
  deriving DecidableEq, Repr, Inhabited

/-- Whether a token ends the place of an item of a block sequence without filling it. -/
def endsItem : Symbol → Bool
  | .entry _ => true
  | .blockEnd => true
  | _ => false

/-- Whether a token ends the place of an item of a sequence right below a key. -/
def endsItemBelowKey : Symbol → Bool
  | .entry _ => true
  | .key _ => true
  | .value _ => true
  | .blockEnd => true
  | _ => false

/-- Whether a token ends the place of a key or value of a block mapping without filling it. -/
def endsPart : Symbol → Bool
  | .key _ => true
  | .value _ => true
  | .blockEnd => true
  | _ => false

/-- Whether a token ends the place of a key within brackets. -/
def endsKey (close : Symbol) : Symbol → Bool
  | .value _ => true
  | .separator => true
  | symbol => symbol == close

/-- Whether a token ends the place of a value within brackets. -/
def endsValue (close : Symbol) : Symbol → Bool
  | .separator => true
  | symbol => symbol == close

/-- Reads an anchor, a tag, or both. -/
def readProperties (s : State) : Except Fault (Properties × State) := do
  let readTag (s : State) (start : Mark) (anchor : Option String) :
      Except Fault (Properties × Option (Mark × Tag.Written) × State) := do
    let token ← s.peek
    match token.symbol with
    | .tag written => return (⟨start, anchor, none⟩, some (token.start, written), s.skip)
    | _ => return (⟨start, anchor, none⟩, none, s)
  let token ← s.peek
  let (properties, written, s) ←
    match token.symbol with
    | .anchor name => readTag s.skip token.start (some name)
    | .tag written =>
      let s := s.skip
      let second ← s.peek
      match second.symbol with
      | .anchor name => pure (⟨token.start, some name, none⟩, some (token.start, written), s.skip)
      | _ => pure (⟨token.start, none, none⟩, some (token.start, written), s)
    | _ => pure (⟨token.start, none, none⟩, none, s)
  let _ ← s.peek
  match written with
  | none => return (properties, s)
  | some (mark, written) =>
    match written.tag? with
    | some tag => return ({ properties with tag := some tag }, s)
    | none => throw (.within .unknownHandle mark .node properties.start)

/-- The tag of a text: `!` alone says only that it is one. -/
def scalarTag (tag : Option Bytes) : Option Bytes :=
  if tag = some (Utf8.encode "!") then none else tag

mutual

/-- Reads a node. -/
def read : (fuel : Nat) → Position → State → Reading Node
  | 0, _, s => stop .broken s.fault
  | fuel + 1, position, s =>
    match s.peek with
    | .error fault => stop .broken fault
    | .ok token =>
      match token.symbol with
      | .alias name =>
        match s.names.lookup name with
        | some number => (.alias token.start number, .ok s.skip)
        | none => stop .broken (.unknownAnchor token.start)
      | _ =>
        match readProperties s with
        | .error fault => stop .broken fault
        | .ok (properties, s) => readContent fuel position properties s

/-- Reads what follows the properties of a node. -/
def readContent : (fuel : Nat) → Position → Properties → State → Reading Node
  | 0, _, _, s => stop .broken s.fault
  | fuel + 1, position, ⟨start, name, tag⟩, s =>
    match s.peek with
    | .error fault => stop .broken fault
    | .ok token =>
      let (anchor, named) := s.nameAnchor name
      match token.symbol with
      | .scalar plain text => (.scalar start anchor (scalarTag tag) plain text, .ok named.skip)
      | .sequenceOpen =>
        let (items, next) := readItems fuel token.start true named.skip
        (.sequence start anchor tag items, next)
      | .mappingOpen =>
        let (entries, next) := readEntries fuel token.start true named.skip
        (.mapping start anchor tag entries, next)
      | symbol =>
        match symbol, position.block, position.belowKey with
        | .entry _, _, true =>
          let (items, next) := readItemsBelowKey fuel named
          (.sequence start anchor tag items, next)
        | .blockSequence, true, _ =>
          let (items, next) := readBlockItems fuel token.start named.skip
          (.sequence start anchor tag items, next)
        | .blockMapping, true, _ =>
          let (entries, next) := readBlockEntries fuel token.start named.skip
          (.mapping start anchor tag entries, next)
        | _, block, _ =>
          if name.isSome || tag.isSome then (.scalar start anchor tag true "", .ok named)
          else
            let context : Context := if block then .blockNode else .flowNode
            stop .broken (.within .contentMissing token.start context start)

/-- Reads the items of a block sequence. -/
def readBlockItems : (fuel : Nat) → Mark → State → Reading (List Node)
  | 0, _, s => stop [.broken] s.fault
  | fuel + 1, start, s =>
    match s.peek with
    | .error fault => stop [.broken] fault
    | .ok token =>
      match token.symbol with
      | .entry after =>
        let item := readUnless fuel endsItem after ⟨true, false⟩ s.skip
        item.andThen (fun item => [item]) fun item s =>
          (readBlockItems fuel start s).andThen (item :: ·) fun items s => (item :: items, .ok s)
      | .blockEnd => ([], .ok s.skip)
      | _ => stop [.broken] (.within .entryMissing token.start .blockSequence start)

/-- Reads the items of a sequence right below a key. -/
def readItemsBelowKey : (fuel : Nat) → State → Reading (List Node)
  | 0, s => stop [.broken] s.fault
  | fuel + 1, s =>
    match s.peek with
    | .error fault => stop [.broken] fault
    | .ok token =>
      match token.symbol with
      | .entry after =>
        let item := readUnless fuel endsItemBelowKey after ⟨true, false⟩ s.skip
        item.andThen (fun item => [item]) fun item s =>
          (readItemsBelowKey fuel s).andThen (item :: ·) fun items s => (item :: items, .ok s)
      | _ => ([], .ok s)

/-- Reads the entries of a block mapping. -/
def readBlockEntries : (fuel : Nat) → Mark → State → Reading (List (Node × Node))
  | 0, _, s => stop brokenEntries s.fault
  | fuel + 1, start, s =>
    match s.peek with
    | .error fault => stop brokenEntries fault
    | .ok token =>
      match token.symbol with
      | .key after =>
        let key := readUnless fuel endsPart after ⟨true, true⟩ s.skip
        key.andThen (fun key => [(key, .broken)]) fun key s =>
          (readBlockValue fuel s).andThen (fun value => [(key, value)]) fun value s =>
            (readBlockEntries fuel start s).andThen ((key, value) :: ·) fun entries s =>
              ((key, value) :: entries, .ok s)
      | .blockEnd => ([], .ok s.skip)
      | _ => stop brokenEntries (.within .keyMissing token.start .blockMapping start)

/-- Reads the value of a block mapping that may follow a key. -/
def readBlockValue : (fuel : Nat) → State → Reading Node
  | 0, s => stop .broken s.fault
  | fuel + 1, s =>
    match s.peek with
    | .error fault => stop .broken fault
    | .ok token =>
      match token.symbol with
      | .value after => readUnless fuel endsPart after ⟨true, true⟩ s.skip
      | _ => (omitted token.start, .ok s)

/-- Reads a node, unless the next token shows that it is left out. -/
def readUnless : (fuel : Nat) → (Symbol → Bool) → Mark → Position → State → Reading Node
  | 0, _, _, _, s => stop .broken s.fault
  | fuel + 1, ends, mark, position, s =>
    match s.peek with
    | .error fault => stop .broken fault
    | .ok token =>
      if ends token.symbol then (omitted mark, .ok s) else read fuel position s

/-- Reads a node within brackets, unless the next token shows that it is left out. -/
def readUnlessHere : (fuel : Nat) → (Symbol → Bool) → State → Reading Node
  | 0, _, s => stop .broken s.fault
  | fuel + 1, ends, s =>
    match s.peek with
    | .error fault => stop .broken fault
    | .ok token =>
      if ends token.symbol then (omitted token.start, .ok s) else read fuel ⟨false, false⟩ s

/-- Reads the value within brackets that may follow a key. -/
def readValue : (fuel : Nat) → (close : Symbol) → State → Reading Node
  | 0, _, s => stop .broken s.fault
  | fuel + 1, close, s =>
    match s.peek with
    | .error fault => stop .broken fault
    | .ok token =>
      match token.symbol with
      | .value _ => readUnlessHere fuel (endsValue close) s.skip
      | _ => (omitted token.start, .ok s)

/-- Reads the items between square brackets. `first` says that none has been read. -/
def readItems : (fuel : Nat) → Mark → (first : Bool) → State → Reading (List Node)
  | 0, _, _, s => stop [.broken] s.fault
  | fuel + 1, start, first, s =>
    match s.peek with
    | .error fault => stop [.broken] fault
    | .ok token =>
      if token.symbol = .sequenceClose then ([], .ok s.skip)
      else if !first && token.symbol ≠ .separator then
        stop [.broken] (.within .sequenceUnclosed token.start .flowSequence start)
      else
        let s := if first then s else s.skip
        match s.peek with
        | .error fault => stop [.broken] fault
        | .ok token =>
          match token.symbol with
          | .sequenceClose => ([], .ok s.skip)
          | .key _ =>
            (readPair fuel token.start s.skip).andThen (fun item => [item]) fun item s =>
              (readItems fuel start false s).andThen (item :: ·) fun items s =>
                (item :: items, .ok s)
          | _ =>
            (read fuel ⟨false, false⟩ s).andThen (fun item => [item]) fun item s =>
              (readItems fuel start false s).andThen (item :: ·) fun items s =>
                (item :: items, .ok s)

/-- Reads a mapping of one entry that is an item between square brackets. -/
def readPair : (fuel : Nat) → Mark → State → Reading Node
  | 0, start, s => stop (.mapping start none none brokenEntries) s.fault
  | fuel + 1, start, s =>
    match s.peek with
    | .error fault => stop (.mapping start none none brokenEntries) fault
    | .ok token =>
      let key : Reading Node :=
        if endsKey .sequenceClose token.symbol then (omitted token.start, .ok s.skip)
        else read fuel ⟨false, false⟩ s
      key.andThen (fun key => .mapping start none none [(key, .broken)]) fun key s =>
        (readValue fuel .sequenceClose s).andThen
          (fun value => .mapping start none none [(key, value)]) fun value s =>
            (.mapping start none none [(key, value)], .ok s)

/-- Reads the entries between curly brackets. `first` says that none has been read. -/
def readEntries : (fuel : Nat) → Mark → (first : Bool) → State → Reading (List (Node × Node))
  | 0, _, _, s => stop brokenEntries s.fault
  | fuel + 1, start, first, s =>
    match s.peek with
    | .error fault => stop brokenEntries fault
    | .ok token =>
      if token.symbol = .mappingClose then ([], .ok s.skip)
      else if !first && token.symbol ≠ .separator then
        stop brokenEntries (.within .mappingUnclosed token.start .flowMapping start)
      else
        let s := if first then s else s.skip
        match s.peek with
        | .error fault => stop brokenEntries fault
        | .ok token =>
          match token.symbol with
          | .mappingClose => ([], .ok s.skip)
          | .key _ =>
            let key := readUnlessHere fuel (endsKey .mappingClose) s.skip
            key.andThen (fun key => [(key, .broken)]) fun key s =>
              (readValue fuel .mappingClose s).andThen (fun value => [(key, value)]) fun value s =>
                (readEntries fuel start false s).andThen ((key, value) :: ·) fun entries s =>
                  ((key, value) :: entries, .ok s)
          | _ =>
            (read fuel ⟨false, false⟩ s).andThen (fun key => [(key, .broken)]) fun key s =>
              match s.peek with
              | .error fault => stop [(key, .broken)] fault
              | .ok token =>
                let value := omitted token.start
                (readEntries fuel start false s).andThen ((key, value) :: ·) fun entries s =>
                  ((key, value) :: entries, .ok s)

end

mutual

/-- Whether a node holds nothing that could not be read. -/
def isWhole : Node → Bool
  | .scalar _ _ _ _ _ => true
  | .sequence _ _ _ items => areWhole items
  | .mapping _ _ _ entries => entriesAreWhole entries
  | .alias _ _ => true
  | .broken => false

/-- Whether nodes hold nothing that could not be read. -/
def areWhole : List Node → Bool
  | [] => true
  | item :: items => item.isWhole && areWhole items

/-- Whether the keys and values of entries hold nothing that could not be read. -/
def entriesAreWhole : List (Node × Node) → Bool
  | [] => true
  | (key, value) :: entries => key.isWhole && value.isWhole && entriesAreWhole entries

end

/-- The anchor of a node. -/
def anchor? : Node → Option Nat
  | .scalar _ anchor _ _ _ => anchor
  | .sequence _ anchor _ _ => anchor
  | .mapping _ anchor _ _ => anchor
  | .alias _ _ => none
  | .broken => none

mutual

/-- The last node with an anchor, in the order of their starts. -/
def anchored? (number : Nat) (node : Node) : Option Node :=
  let inner :=
    match node with
    | .sequence _ _ _ items => anchoredAmong? number items
    | .mapping _ _ _ entries => anchoredAmongEntries? number entries
    | _ => none
  inner <|> if node.anchor? = some number then some node else none

/-- The last of several nodes or of the nodes in them with an anchor. -/
def anchoredAmong? (number : Nat) : List Node → Option Node
  | [] => none
  | item :: items => anchoredAmong? number items <|> anchored? number item

/-- The last of the keys and values of entries or of the nodes in them with an anchor. -/
def anchoredAmongEntries? (number : Nat) : List (Node × Node) → Option Node
  | [] => none
  | (key, value) :: entries =>
    anchoredAmongEntries? number entries <|> anchored? number value <|> anchored? number key

end

end Node

end ConsoleSweep.Yaml
