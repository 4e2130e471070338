import ConsoleSweep.Glob.Token

/-!
# Reading globs

`parse` goes over the characters of a glob once. `Reading` is what it knows after some of them: the
tokens of the branch it is in, the choices that are still open, and what the last characters may
turn into.

`**` stands for directories only as a whole component, which is known at the character after it;
that is first or last. A range may be continued: after `a-c`, `-e` stretches the same range.
-/

namespace ConsoleSweep.Glob

/-- The members of a class read so far, last first. -/
structure ClassReading where
  negated : Bool
  ranges : List (Char × Char)
  /-- Nothing has been read yet. -/
  fresh : Bool
  /-- A `-` has been read that may go on with the last range. -/
  stretching : Bool

/-- What the last characters read may turn into. -/
inductive Mode where
  | plain
  | escape
  /-- After one star; the character before it is kept. -/
  | star (before : Option Char)
  /-- After two stars; the character before them is kept. -/
  | stars (before : Option Char)
  | classStart
  | inClass (members : ClassReading)

/-- What is known after some characters of a glob. -/
structure Reading where
  /-- The tokens of the branch being read, last first. -/
  tokens : List Token
  /-- The open choices, innermost first: the finished branches, last first, and the tokens before
  the choice. -/
  groups : List (List (List Token) × List Token)
  /-- The last character read. -/
  last : Option Char
  mode : Mode

namespace Reading

/-- Nothing read. -/
def start : Reading := ⟨[], [], none, .plain⟩

/-- Adds a token to the branch being read. -/
def push (r : Reading) (token : Token) : Reading := { r with tokens := token :: r.tokens }

/-- Reads one character where nothing is pending. -/
def plainStep (r : Reading) (c : Char) : Except Malformed Reading :=
  let r' := { r with last := some c, mode := .plain }
  match c with
  | '?' => .ok (r'.push .one)
  | '*' => .ok { r' with mode := .star r.last }
  | '[' => .ok { r' with mode := .classStart }
  | '\x7b' => .ok { r' with tokens := [], groups := ([], r.tokens) :: r.groups }
  | '\x7d' =>
    match r.groups with
    | [] => .error .unopenedGroup
    | (done, before) :: groups =>
      let branches := (r.tokens :: done).reverse.map List.reverse
      .ok { r' with tokens := .choice branches :: before, groups }
  | ',' =>
    match r.groups with
    | [] => .ok (r'.push (.literal ','))
    | (done, before) :: groups =>
      .ok { r' with tokens := [], groups := (r.tokens :: done, before) :: groups }
  | '\\' => .ok { r' with mode := .escape }
  | c => .ok (r'.push (.literal c))

/-- The token that a star component becomes after `previous`: repeated components count once. -/
def component (previous : Token) (closing : Bool) : Token :=
  match previous with
  | .leadingDirs => .leadingDirs
  | .trailingDirs => .trailingDirs
  | _ => if closing then .trailingDirs else .innerDirs

/-- Decides what two stars are, given the character before them and the one after. The second part
says whether the character after them is used up. -/
def settleStars (r : Reading) (before after : Option Char) : Reading × Bool :=
  let r := { r with mode := .plain }
  let twoRuns := ((r.push .run).push .run, false)
  match r.tokens with
  | [] =>
    if after == none || after == some '/' then (r.push .leadingDirs, true) else twoRuns
  | previous :: tokens =>
    let grouped := !r.groups.isEmpty
    if before == some '/' || (grouped && (before == some ',' || before == some '\x7b')) then
      if after == some '/' then ({ r with tokens := component previous false :: tokens }, true)
      else if after == none || (grouped && (after == some ',' || after == some '\x7d')) then
        ({ r with tokens := component previous true :: tokens }, false)
      else twoRuns
    else twoRuns

/-- Stretches the last range of a class up to a character. -/
def stretch (m : ClassReading) (c : Char) : Except Malformed ClassReading :=
  match m.ranges with
  | (first, _) :: rest =>
    if c < first then .error (.invalidRange first c)
    else .ok { m with ranges := (first, c) :: rest, stretching := false }
  | [] => .ok { m with ranges := [(c, c)], stretching := false }

/-- Reads one character of a class; no result means that the class is closed. -/
def classStep (m : ClassReading) (c : Char) : Except Malformed (Option ClassReading) :=
  let m' := { m with fresh := false }
  if c == ']' && !m.fresh then .ok none
  else if c == '-' && !m.fresh then
    if m.stretching then (stretch m' c).map some else .ok (some { m' with stretching := true })
  else if m.stretching then (stretch m' c).map some
  else .ok (some { m' with ranges := (c, c) :: m.ranges })

/-- The token of a class that has been read. A pending `-` is a member. -/
def classToken (m : ClassReading) : Token :=
  .oneOf m.negated ((if m.stretching then ('-', '-') :: m.ranges else m.ranges).reverse)

/-- Reads one character inside a class. -/
def inClassStep (r : Reading) (m : ClassReading) (c : Char) : Except Malformed Reading := do
  match ← classStep m c with
  | some m => return { r with last := some c, mode := .inClass m }
  | none => return { r with last := some c, mode := .plain }.push (classToken m)

/-- Reads one character. -/
def step (r : Reading) (c : Char) : Except Malformed Reading :=
  match r.mode with
  | .plain => r.plainStep c
  | .escape => .ok ({ r with last := some c, mode := .plain }.push (.literal c))
  | .star before =>
    if c == '*' then .ok { r with last := some c, mode := .stars before }
    else ({ r with mode := .plain }.push .run).plainStep c
  | .stars before =>
    match r.settleStars before (some c) with
    | (r, true) => .ok { r with last := some c }
    | (r, false) => r.plainStep c
  | .classStart =>
    if c == '!' || c == '^' then
      .ok { r with last := some c, mode := .inClass ⟨true, [], true, false⟩ }
    else r.inClassStep ⟨false, [], true, false⟩ c
  | .inClass m => r.inClassStep m c

/-- The tokens once all characters are read. -/
def finish (r : Reading) : Except Malformed (List Token) :=
  let close (r : Reading) : Except Malformed (List Token) :=
    if r.groups.isEmpty then .ok r.tokens.reverse else .error .unclosedGroup
  match r.mode with
  | .plain => close r
  | .escape => .error .danglingEscape
  | .star _ => close (r.push .run)
  | .stars before => close (r.settleStars before none).1
  | .classStart | .inClass _ => .error .unclosedClass

end Reading

/-- The tokens of a glob. -/
def parse (text : List Char) : Except Malformed (List Token) := do
  (← text.foldlM Reading.step Reading.start).finish

end ConsoleSweep.Glob
