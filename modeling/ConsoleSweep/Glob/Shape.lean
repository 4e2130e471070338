import ConsoleSweep.Glob.Token

/-!
# Shapes of globs

Most globs are matched without a matching engine, by comparing a name, an extension or one end of a
path. The engine gets the rest: globs of the shape `extended`, one at a time, and globs of the shape
`general`, together and in order. The shape of a glob does not change what it matches, only where
the engine counts it when it refuses one.
-/

namespace ConsoleSweep.Glob

/-- How a glob is matched. -/
inductive Shape where
  /-- `**` and a name. -/
  | named
  /-- One path. -/
  | fixed
  /-- `**` and all names with one extension. -/
  | suffixed
  /-- Everything below one directory. -/
  | below
  /-- `**` and the end of a path. -/
  | ending
  /-- Anything that ends in one extension. -/
  | extended
  | general
  deriving DecidableEq, Repr

/-- The character a token stands for. -/
def Token.literal? : Token → Option Char
  | .literal c => some c
  | _ => none

/-- The characters of a glob that has nothing but characters. -/
def literals? (glob : List Token) : Option (List Char) := glob.mapM Token.literal?

/-- Whether a glob ends in characters that make an extension: a dot and no separator after it. -/
def endsInExtension (glob : List Token) : Bool :=
  let tail := glob.reverse.map Token.literal?
  tail.find? (fun c => c == none || c == some '.' || c == some '/') == some (some '.')

/-- The shape of a glob. -/
def shape (glob : List Token) : Shape :=
  let byParts : Option Shape :=
    match glob with
    | .leadingDirs :: rest =>
      match literals? rest with
      | some (c :: cs) => some (if '/' ∈ c :: cs then .ending else .named)
      | _ =>
        match rest with
        | .run :: .literal '.' :: name =>
          (literals? name).bind fun cs =>
            if '.' ∈ cs || '/' ∈ cs then none else some .suffixed
        | _ => none
    | _ =>
      match literals? glob with
      | some (_ :: _) => some .fixed
      | _ =>
        match glob.getLast?, literals? glob.dropLast with
        | some .trailingDirs, some _ => some .below
        | _, _ => none
  byParts.getD (if endsInExtension glob then .extended else .general)

end ConsoleSweep.Glob
