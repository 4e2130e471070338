/-!
# Lower case

Replies and colour names are compared in lower case. What they are compared with is ASCII, so only
the characters whose lower-case form is ASCII matter.
-/

namespace ConsoleSweep

/-- The lower-case form of a character as far as it is ASCII: `A` to `Z`, and the Kelvin sign, which
is the only other character whose lower-case form is a single ASCII letter. -/
def lowerChar (c : Char) : Char :=
  if c == '\u212A' then 'k' else c.toLower

/-- The lower-case form of a text as far as it is ASCII. -/
def lowerCase (s : String) : String :=
  String.ofList (s.toList.map lowerChar)

/-- The lower-case form of a text, touching only `A` to `Z`. -/
def asciiLowerCase (s : String) : String :=
  String.ofList (s.toList.map Char.toLower)

end ConsoleSweep
