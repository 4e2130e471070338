import ConsoleSweep.Yaml.Node

/-!
# Documents

A YAML text is a sequence of documents. Only the first one is read; of the others it is only told
whether there are any.
-/

namespace ConsoleSweep.Yaml

/-- The first document of a text. -/
structure Document where
  /-- Its node; none if the text holds no document. -/
  root : Option Node
  /-- Why the document, or what shows its end, could not be read. -/
  fault : Option Fault
  /-- Whether nothing follows it. -/
  alone : Bool
  deriving Repr, Inhabited

namespace Document

/-- The steps that are enough to read so many tokens. -/
def stepsFor (tokens : Nat) : Nat := 8 * tokens + 16

/-- Whether a token shows that a document is empty. -/
def endsEmpty : Symbol → Bool
  | .documentStart => true
  | .documentEnd => true
  | .streamEnd => true
  | _ => false

/-- Reads the node of a document. -/
def readRoot (s : Node.State) : Node.Reading Node :=
  Node.read (stepsFor s.tokens.length) ⟨true, false⟩ s

/-- Reads the node of a document that a marker starts, and that may be empty. -/
def readMarked (s : Node.State) : Node.Reading Node :=
  match s.peek with
  | .error fault => Node.stop .broken fault
  | .ok token => if endsEmpty token.symbol then (Node.omitted token.start, .ok s) else readRoot s

/-- Whether no document follows. -/
def isLast (s : Node.State) : Bool :=
  match s.tokens.dropWhile (·.symbol = .documentEnd) with
  | token :: _ => token.symbol = .streamEnd
  | [] => false

/-- The document whose node has been read. -/
def close (reading : Node.Reading Node) : Document :=
  match reading.2 with
  | .error fault => ⟨some reading.1, some fault, false⟩
  | .ok s =>
    match s.peek with
    | .error fault => ⟨some reading.1, some fault, false⟩
    | .ok _ => ⟨some reading.1, none, isLast s⟩

/-- The document at the start of tokens. -/
def ofState (s : Node.State) : Document :=
  match s.peek with
  | .error fault => ⟨some .broken, some fault, false⟩
  | .ok token =>
    match token.symbol with
    | .streamEnd => ⟨none, none, true⟩
    | .documentStart => close (readMarked s.skip)
    | _ => close (readRoot s)

/-- The first document of a text. -/
def ofText (text : String) : Document :=
  let stream := TokenStream.ofText text
  ofState ⟨stream.tokens, stream.fault.getD (.bare .documentStartMissing .start), []⟩

/-- The node that a node stands for: an alias stands for the node it names. -/
def follow (d : Document) : Node → Node
  | .alias start number => ((d.root.bind (Node.anchored? number)).getD (.alias start number))
  | node => node

end Document

end ConsoleSweep.Yaml
