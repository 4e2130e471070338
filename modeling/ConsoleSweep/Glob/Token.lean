/-!
# Globs

A glob is a pattern for the bytes of a path. Its tokens are characters, wildcards for one byte and
for a run of bytes, wildcards for any number of directories, byte classes and choices between
globs.
-/

namespace ConsoleSweep.Glob

/-- One token of a glob. -/
inductive Token where
  /-- A character that stands for itself. -/
  | literal (c : Char)
  /-- `?`: one byte within a name. -/
  | one
  /-- `*`: any bytes within a name. -/
  | run
  /-- A leading `**` with its separator: any number of directories. -/
  | leadingDirs
  /-- A closing `**` with its separator: everything below. -/
  | trailingDirs
  /-- A `**` between separators: any number of directories. -/
  | innerDirs
  /-- `[…]`: one byte of the given characters, or none of them. -/
  | oneOf (negated : Bool) (ranges : List (Char × Char))
  /-- `{…,…}`: one of several globs. -/
  | choice (branches : List (List Token))
  deriving Repr, Inhabited

/-- Why a text is no glob. -/
inductive Malformed where
  | unclosedClass
  | invalidRange (first last : Char)
  | unopenedGroup
  | unclosedGroup
  | danglingEscape
  deriving DecidableEq, Repr

/-- The reason in words. -/
def Malformed.message : Malformed → String
  | unclosedClass => "unclosed character class; missing ']'"
  | invalidRange first last =>
    "invalid range; '" ++ first.toString ++ "' > '" ++ last.toString ++ "'"
  | unopenedGroup =>
    "unopened alternate group; missing '\x7b' (maybe escape '\x7d' with '[\x7d]'?)"
  | unclosedGroup =>
    "unclosed alternate group; missing '\x7d' (maybe escape '\x7b' with '[\x7b]'?)"
  | danglingEscape => "dangling '\\'"

mutual

/-- Whether a token asks for nothing: a choice without a branch that asks for something. -/
def Token.isVoid : Token → Bool
  | .choice branches => allBranchesVoid branches
  | _ => false

/-- Whether every token of a glob asks for nothing. -/
def allVoid : List Token → Bool
  | [] => true
  | token :: rest => token.isVoid && allVoid rest

/-- Whether every branch asks for nothing. -/
def allBranchesVoid : List (List Token) → Bool
  | [] => true
  | branch :: rest => allVoid branch && allBranchesVoid rest

end

end ConsoleSweep.Glob
