import ConsoleSweep.Yaml.Scalar.Block
import ConsoleSweep.Yaml.Scalar.Plain
import ConsoleSweep.Yaml.Scalar.Quoted
import ConsoleSweep.Yaml.Tag

/-!
# Tokens

A YAML text as a sequence of tokens. Indentation becomes tokens of its own: one where a block
collection starts and one where it ends.

## Shape of the reading

A word turns out to be a key only when the colon after it is read. So whatever may be a key is
remembered with the number of its token, later tokens queue up behind it, and the colon puts the key
token, and if need be the start of a mapping, in front of that token. A token leaves the queue when
nothing can be put in front of it any more. A fault keeps the tokens in the queue from being seen,
and leaves those before them.
-/

namespace ConsoleSweep.Yaml

/-- What a token is. `after` is the position where a node would stand that is left out. -/
inductive Symbol where
  | streamEnd
  | documentStart
  | documentEnd
  | blockSequence
  | blockMapping
  | blockEnd
  | sequenceOpen
  | sequenceClose
  | mappingOpen
  | mappingClose
  | separator
  | entry (after : Mark)
  | key (after : Mark)
  | value (after : Mark)
  | «alias» (name : String)
  | anchor (name : String)
  | tag (written : Tag.Written)
  | scalar (plain : Bool) (text : String)
  deriving DecidableEq, Repr, Inhabited

/-- A token and where it starts. -/
structure Token where
  symbol : Symbol
  start : Mark
  deriving DecidableEq, Repr, Inhabited

/-- What may turn out to be a key. -/
structure PossibleKey where
  /-- The number of its token. -/
  number : Nat
  start : Mark
  /-- Whether nothing but a key may stand there. -/
  required : Bool
  deriving DecidableEq, Repr, Inhabited

/-- How far a text has been read. -/
structure Layout where
  cursor : Cursor
  /-- How far the entries of the innermost block collection are indented, plus one; zero outside of
  all block collections. -/
  level : Nat
  /-- The same for the collections around it, innermost first. -/
  outerLevels : List Nat
  /-- Whether a key may start here. -/
  keyAllowed : Bool
  /-- What may be a key between the innermost brackets. -/
  key : Option PossibleKey
  /-- The same for the brackets around them and for outside of all brackets, innermost first. -/
  outerKeys : List (Option PossibleKey)
  /-- The number of the first token in the queue. -/
  number : Nat
  queue : List Token
  ended : Bool
  deriving Repr, Inhabited

namespace Layout

/-- The start of a text. -/
def start (text : List Char) : Layout :=
  ⟨⟨text, .start⟩, 0, [], true, none, [], 0, [], false⟩

/-- The position of the reading. -/
def mark (l : Layout) : Mark := l.cursor.mark

/-- Whether the reading is within brackets. -/
def bracketed (l : Layout) : Bool := !l.outerKeys.isEmpty

/-- A fault at the position of the reading. -/
def fail {α : Type} (l : Layout) (problem : Problem) (context : Context) (start : Mark) :
    Except Fault α :=
  .error (.within problem l.mark context start)

/-- Adds a token to the queue. -/
def push (l : Layout) (symbol : Symbol) (start : Mark) : Layout :=
  { l with queue := l.queue ++ [⟨symbol, start⟩] }

/-- Puts a token in front of the token of a number. -/
def insert (l : Layout) (number : Nat) (symbol : Symbol) (start : Mark) : Layout :=
  let place := number - l.number
  { l with queue := l.queue.take place ++ ⟨symbol, start⟩ :: l.queue.drop place }

/-- Moves over so many characters, none of which ends a line. -/
def skip (l : Layout) (n : Nat) : Layout := { l with cursor := l.cursor.skip n }

/-! ## Keys -/

/-- Whether a key that started earlier can no longer come: a key is on one line and not too long. -/
def isStale (l : Layout) (k : PossibleKey) : Bool :=
  k.start.line < l.mark.line || k.start.index + 1024 < l.mark.index

/-- Gives up a possible key if it is stale. -/
def dropIfStale (l : Layout) : Option PossibleKey → Except Fault (Option PossibleKey)
  | some k =>
    if l.isStale k then
      if k.required then l.fail .colonMissing .simpleKey k.start else .ok none
    else .ok (some k)
  | none => .ok none

/-- Gives up the stale keys, the outermost first. -/
def dropStale (l : Layout) : Except Fault Layout := do
  let outer ← l.outerKeys.reverse.mapM l.dropIfStale
  let key ← l.dropIfStale l.key
  return { l with key, outerKeys := outer.reverse }

/-- Gives up the possible key between the innermost brackets. -/
def dropKey (l : Layout) : Except Fault Layout :=
  match l.key with
  | some k =>
    if k.required then l.fail .colonMissing .simpleKey k.start else .ok { l with key := none }
  | none => .ok l

/-- Notes that the next token may be a key. -/
def noteKey (l : Layout) : Except Fault Layout := do
  if l.keyAllowed then
    let l ← l.dropKey
    let required := !l.bracketed && l.level == l.mark.column + 1
    return { l with key := some ⟨l.number + l.queue.length, l.mark, required⟩ }
  else return l

/-! ## Indentation -/

/-- Starts a block collection if a column is further in than the one around it. Its first token
comes in front of the token of the given number, or at the end of the queue. -/
def openBlock (l : Layout) (column : Nat) (number : Option Nat) (symbol : Symbol) (start : Mark) :
    Layout :=
  if l.bracketed || column < l.level then l
  else
    let l := { l with level := column + 1, outerLevels := l.level :: l.outerLevels }
    match number with
    | some number => l.insert number symbol start
    | none => l.push symbol start

/-- Ends the given block collections as far as they are further in than `level`. -/
def closeBlocksFrom (level : Nat) (l : Layout) : List Nat → Layout
  | [] => { l with outerLevels := [] }
  | outer :: rest =>
    if level < l.level then
      closeBlocksFrom level { (l.push .blockEnd l.mark) with level := outer } rest
    else { l with outerLevels := outer :: rest }

/-- Ends the block collections that are further in than `level`. -/
def closeBlocks (l : Layout) (level : Nat) : Layout :=
  if l.bracketed then l else closeBlocksFrom level l l.outerLevels

/-! ## White space -/

/-- Moves over white space and comments to the next token. Tabs count as white space only where no
key may start. Outside of brackets a new line may start with a key. -/
def skipSpaceFrom (bracketed : Bool) :
    (keyAllowed inComment : Bool) → Mark → List Char → Bool × Cursor
  | keyAllowed, _, mark, [] => (keyAllowed, ⟨[], mark⟩)
  | keyAllowed, _, mark, '\r' :: '\n' :: rest =>
    skipSpaceFrom bracketed (keyAllowed || !bracketed) false (mark.nextLine 2) rest
  | keyAllowed, inComment, mark, c :: rest =>
    if isLineBreak c then
      skipSpaceFrom bracketed (keyAllowed || !bracketed) false (mark.nextLine 1) rest
    else if inComment then skipSpaceFrom bracketed keyAllowed true mark.next rest
    else if c == '#' then skipSpaceFrom bracketed keyAllowed true mark.next rest
    else if c == ' ' || (c == '\t' && (bracketed || !keyAllowed)) ||
        (c == '\uFEFF' && mark.column == 0) then
      skipSpaceFrom bracketed keyAllowed false mark.next rest
    else (keyAllowed, ⟨c :: rest, mark⟩)

/-- Moves to the next token. -/
def skipSpace (l : Layout) : Layout :=
  let (keyAllowed, cursor) := skipSpaceFrom l.bracketed l.keyAllowed false l.mark l.cursor.rest
  { l with keyAllowed, cursor }

/-! ## Tokens -/

/-- Ends the text. -/
def finish (l : Layout) : Except Fault Layout := do
  let mark := if l.mark.column = 0 then l.mark else ⟨l.mark.index, l.mark.line + 1, 0⟩
  let l := { l with cursor := ⟨[], mark⟩ }
  let l ← (l.closeBlocks 0).dropKey
  return { (l.push .streamEnd l.mark) with keyAllowed := false, ended := true }

/-- Takes a marker between documents. -/
def marker (l : Layout) (symbol : Symbol) : Except Fault Layout := do
  let l ← (l.closeBlocks 0).dropKey
  return { ((l.push symbol l.mark).skip 3) with keyAllowed := false }

/-- Takes an opening bracket. -/
def openBracket (l : Layout) (symbol : Symbol) : Except Fault Layout := do
  let l ← l.noteKey
  return { ((l.push symbol l.mark).skip 1) with
    key := none, outerKeys := l.key :: l.outerKeys, keyAllowed := true }

/-- Takes a closing bracket, which may close nothing. -/
def closeBracket (l : Layout) (symbol : Symbol) : Except Fault Layout := do
  let l ← l.dropKey
  let l := { ((l.push symbol l.mark).skip 1) with keyAllowed := false }
  match l.outerKeys with
  | [] => return l
  | key :: outerKeys => return { l with key, outerKeys }

/-- Takes a comma within brackets. -/
def separator (l : Layout) : Except Fault Layout := do
  let l ← l.dropKey
  return { ((l.push .separator l.mark).skip 1) with keyAllowed := true }

/-- Takes the dash of an entry. -/
def entry (l : Layout) : Except Fault Layout := do
  if !l.bracketed && !l.keyAllowed then throw (.bare .entryNotAllowed l.mark)
  let l ← (l.openBlock l.mark.column none .blockSequence l.mark).dropKey
  return { ((l.push (.entry l.mark.next) l.mark).skip 1) with keyAllowed := true }

/-- Takes the question mark of a key. -/
def explicitKey (l : Layout) : Except Fault Layout := do
  if !l.bracketed && !l.keyAllowed then throw (.bare .keyNotAllowed l.mark)
  let l ← (l.openBlock l.mark.column none .blockMapping l.mark).dropKey
  return { ((l.push (.key l.mark.next) l.mark).skip 1) with keyAllowed := !l.bracketed }

/-- Takes the colon of a value. What may have been a key before it is one. -/
def value (l : Layout) : Except Fault Layout := do
  let l ←
    match l.key with
    | some k =>
      let l := l.insert k.number (.key k.start) k.start
      let l := l.openBlock k.start.column (some k.number) .blockMapping k.start
      pure { l with key := none, keyAllowed := false }
    | none =>
      if !l.bracketed && !l.keyAllowed then throw (.bare .valueNotAllowed l.mark)
      let l := l.openBlock l.mark.column none .blockMapping l.mark
      pure { l with keyAllowed := !l.bracketed }
  return (l.push (.value l.mark.next) l.mark).skip 1

/-- Takes an anchor or an alias. -/
def name (l : Layout) (context : Context) (symbol : String → Symbol) : Except Fault Layout := do
  let l ← l.noteKey
  let (name, cursor) ← readName context l.cursor
  return { (l.push (symbol name) l.mark) with cursor, keyAllowed := false }

/-- Takes a tag. -/
def tag (l : Layout) : Except Fault Layout := do
  let l ← l.noteKey
  let (written, cursor) ← Tag.read l.bracketed l.cursor
  return { (l.push (.tag written) l.mark) with cursor, keyAllowed := false }

/-- Takes a block scalar. -/
def blockScalar (l : Layout) : Except Fault Layout := do
  let l ← l.dropKey
  let scalar ← BlockScalar.read l.level l.cursor
  return { (l.push (.scalar false (String.ofList scalar.text)) l.mark) with
    cursor := scalar.after, keyAllowed := true }

/-- Takes a quoted scalar. -/
def quotedScalar (l : Layout) : Except Fault Layout := do
  let l ← l.noteKey
  let scalar ← QuotedScalar.read l.cursor
  return { (l.push (.scalar false (String.ofList scalar.text)) l.mark) with
    cursor := scalar.after, keyAllowed := false }

/-- Takes a plain scalar. -/
def plainScalar (l : Layout) : Except Fault Layout := do
  let l ← l.noteKey
  let scalar ← PlainScalar.read l.bracketed l.level l.cursor
  return { (l.push (.scalar true (String.ofList scalar.text)) l.mark) with
    cursor := scalar.after, keyAllowed := scalar.endsLine }

/-- The characters that have a meaning where a token starts. -/
def isSign (c : Char) : Bool :=
  ['-', '?', ':', ',', '[', ']', '\x7b', '\x7d', '#', '&', '*', '!', '|', '>', '\'', '"', '%', '@',
    '\u0060'].contains c

/-- Whether a plain scalar may start here. -/
def startsPlain (l : Layout) (c : Char) (rest : List Char) : Bool :=
  !(isGapBlank c || isLineBreak c || isSign c) ||
    (c == '-' && !(rest.head?.any isGapBlank)) ||
    (!l.bracketed && (c == '?' || c == ':') && !atSpace rest)

/-- Takes the token that starts with the given characters. -/
def take (l : Layout) (c : Char) (rest : List Char) : Except Fault Layout :=
  if l.mark.column == 0 && atMarker '-' (c :: rest) then l.marker .documentStart
  else if l.mark.column == 0 && atMarker '.' (c :: rest) then l.marker .documentEnd
  else
    let signs := l.bracketed || atSpace rest
    match c with
    | '[' => l.openBracket .sequenceOpen
    | '\x7b' => l.openBracket .mappingOpen
    | ']' => l.closeBracket .sequenceClose
    | '\x7d' => l.closeBracket .mappingClose
    | ',' => l.separator
    | '*' => l.name .alias .alias
    | '&' => l.name .anchor .anchor
    | '!' => l.tag
    | '\'' => l.quotedScalar
    | '"' => l.quotedScalar
    | c =>
      if c == '-' && atSpace rest then l.entry
      else if c == '?' && signs then l.explicitKey
      else if c == ':' && signs then l.value
      else if (c == '|' || c == '>') && !l.bracketed then l.blockScalar
      else if l.startsPlain c rest then l.plainScalar
      else l.fail .strayCharacter .token l.mark

/-- Reads the next token, and with it the ends of the block collections before it. -/
def next (l : Layout) : Except Fault Layout := do
  let l ← l.skipSpace.dropStale
  let l := l.closeBlocks (l.mark.column + 1)
  match l.cursor.rest with
  | [] => l.finish
  | c :: rest => l.take c rest

/-- How many tokens at the front of the queue nothing can be put in front of. -/
def ready (l : Layout) : Nat :=
  (l.key :: l.outerKeys).foldl
    (fun n key => key.elim n fun k => min n (k.number - l.number))
    l.queue.length

/-- Takes the tokens out of the queue that nothing can be put in front of. -/
def release (l : Layout) : Except Fault (List Token × Layout) := do
  if l.queue.isEmpty then return ([], l)
  let l ← l.dropStale
  return (l.queue.take l.ready,
    { l with queue := l.queue.drop l.ready, number := l.number + l.ready })

end Layout

/-- The tokens of a text, up to its end or its first fault. -/
structure TokenStream where
  tokens : List Token
  fault : Option Fault
  deriving Repr, Inhabited

namespace TokenStream

/-- Reads on. Every step but the last takes a character, so a text has fewer steps than `fuel`. -/
def readFrom : (fuel : Nat) → Layout → TokenStream
  | 0, _ => ⟨[], none⟩
  | fuel + 1, l =>
    match l.next with
    | .error fault => ⟨[], some fault⟩
    | .ok l =>
      match l.release with
      | .error fault => ⟨[], some fault⟩
      | .ok (tokens, l) =>
        if l.ended then ⟨tokens, none⟩
        else
          let later := readFrom fuel l
          ⟨tokens ++ later.tokens, later.fault⟩

/-- Whether a text may hold a character. -/
def isAllowed (c : Char) : Bool :=
  let n := c.toNat
  n == 0x09 || n == 0x0A || n == 0x0D || (0x20 ≤ n && n ≤ 0x7E) || n == 0x85 ||
    (0xA0 ≤ n && n ≤ 0xFFFD) || 0x10000 ≤ n

/-- The number of bytes before the first character that a text may not hold. -/
def badOffset? : List Char → Option Nat
  | [] => none
  | c :: rest => if isAllowed c then (badOffset? rest).map (· + c.utf8Size) else some 0

/-- The tokens of a text. A control character anywhere keeps all of it from being read. -/
def ofText (text : String) : TokenStream :=
  match badOffset? text.toList with
  | some offset => ⟨[], some (.controlCharacter offset)⟩
  | none => readFrom (text.toList.length + 2) (.start text.toList)

end TokenStream

end ConsoleSweep.Yaml
