/-!
# Control sequences

Text that goes elsewhere than to a terminal is written without control characters, white space
excepted, and without the sequences by which a terminal is controlled.  An escape begins a sequence,
and what follows tells of which kind it is:

* an opening bracket: the sequence ends with the next letter or sign from `@` on;
* a closing bracket: a string that ends with the bell;
* `P`: a string with parameters in front of it, and `X`, `^` or `_`: one without; both end with a
  character that has the byte `9C` in it;
* white space or a sign up to the slash: the sequence ends with the next other character;
* anything else ends the sequence at once.

A further escape begins a new sequence wherever it stands, and two control characters end any
sequence.  White space within a sequence that is no string is shown, and so are the characters after
it; only the next control character leads back into the sequence.
-/

namespace RouteScaffold.Text

/-- Where a character stands among control sequences. -/
inductive ControlState where
  /-- Outside all sequences. -/
  | ground
  /-- Behind an escape. -/
  | escape
  /-- Behind an escape and an intermediate sign. -/
  | intermediate
  /-- Behind an escape and an opening bracket. -/
  | sequence
  /-- In a string that ends with the bell. -/
  | command
  /-- At the start of the parameters of a string. -/
  | parametersStart
  /-- Within the parameters of a string. -/
  | parameters
  /-- Behind the parameters of a string, among intermediate signs. -/
  | parametersEnd
  /-- In a string that ends with a character with the byte `9C`. -/
  | data
  deriving DecidableEq, Repr

/-- Whether a character is one of those between blank and slash. -/
def isIntermediate (c : Char) : Bool := ' ' ≤ c && c ≤ '/'

/-- Whether one of the bytes of a character is `9C`. -/
def hasTerminator (c : Char) : Bool := (String.utf8EncodeChar c).contains 0x9C

namespace ControlState

/-- Whether the sequence is a string, in which not even white space is shown. -/
def isString : ControlState → Bool
  | ground | escape | intermediate | sequence => false
  | command | parametersStart | parameters | parametersEnd | data => true

/-- The state behind an escape and one more sign. -/
def ofIntroducer (c : Char) : ControlState :=
  if c = '[' then sequence
  else if c = ']' then command
  else if c = 'P' then parametersStart
  else if c = 'X' || c = '^' || c = '_' then data
  else if isIntermediate c then intermediate
  else ground

/-- The state behind an ASCII sign. -/
def afterSign (state : ControlState) (c : Char) : ControlState :=
  match state with
  | ground => ground
  | escape => ofIntroducer c
  | intermediate => if isIntermediate c then intermediate else ground
  | sequence => if c < '@' then sequence else ground
  | command => command
  | parametersStart =>
    if isIntermediate c then parametersEnd else if c < '@' then parameters else data
  | parameters =>
    if isIntermediate c then parametersEnd else if c < '<' then parameters else data
  | parametersEnd => if isIntermediate c then parametersEnd else data
  | data => data

/-- The state behind a character that is not shown. -/
def next (state : ControlState) (c : Char) : ControlState :=
  if c = '\x1b' then escape
  else if c = '\x18' || c = '\x1a' then ground
  else if c = '\x07' then if state = command then ground else state
  else if c < ' ' || c = '\x7f' then state
  else if c < '\u0080' then state.afterSign c
  else if state = data && hasTerminator c then ground
  else state

end ControlState

/-- Whether a control character is white space. -/
def isControlBlank (c : Char) : Bool := c = '\t' || c = '\n' || c = '\x0c' || c = '\r'

/-- Whether a character is a control character and no white space. -/
def isControl (c : Char) : Bool := (c < ' ' && !isControlBlank c) || c = '\x7f'

/-- The characters without control sequences, from a state on; `shown` tells that the character
before was shown. -/
def withoutControlsFrom (state : ControlState) (shown : Bool) : List Char → List Char
  | [] => []
  | c :: rest =>
    if !isControl c && (shown || state = .ground || (isControlBlank c && !state.isString)) then
      c :: withoutControlsFrom (if c < '\u0080' then state else .ground) true rest
    else
      withoutControlsFrom (state.next c) false rest

/-- A text without control sequences. -/
def withoutControls (text : String) : String :=
  String.ofList (withoutControlsFrom .ground false text.toList)

end RouteScaffold.Text
