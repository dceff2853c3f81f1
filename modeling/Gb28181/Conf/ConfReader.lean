import Gb28181.Lib.Decimal
import Gb28181.Lib.Loop

/-!
# The configuration reader

`ConfReader.cpp`, which the two services share: a file is read into a buffer of fixed size,
`parse_file` looks for a key of a section in it, and the readers copy the value out.  All the
indices are those of the source.  Memory is a list of bytes with bounds; the buffers that the
source does not initialise are arguments.
-/

namespace Conf

open Lib

/-- `MAX_INI_FILE_SIZE`. -/
def maxIniFileSize : ℕ := 1024 * 10

/-! ### Loading the file -/

/-- `(char)EOF`, which is also a byte that a file can contain. -/
def eofChar : Char := '\xff'

/-- The loop of `load_ini_file`, which stores the file from the index `i` of the buffer on:
`fgetc` yields `EOF` at the end of the file, and the loop does not tell the byte 0xFF from it. -/
def fillBuf : Text → ℕ → Except Fault Text
  | [], _ => .ok []
  | c :: s, i =>
    if c = eofChar then .ok []
    else if i + 1 < maxIniFileSize then do return c :: (← fillBuf s (i + 1))
    else .error .assertFailed

/-- `load_ini_file` with a zeroed buffer; the file is `none` when `fopen` fails. -/
def loadIniFile (file : Option Text) : Except Fault (Option Text) :=
  match file with
  | none => .ok none
  | some s => do
    let t ← fillBuf s 0
    return some (t ++ List.replicate (maxIniFileSize - t.length) nul)

/-! ### Finding a key -/

/-- `newline`. -/
def newline (c : Char) : Bool := c == '\n' || c == '\r'

/-- `end_of_string`. -/
def endOfString (c : Char) : Bool := c == nul

/-- `left_barce`. -/
def leftBarce (c : Char) : Bool := c == '['

/-- `right_brace`. -/
def rightBrace (c : Char) : Bool := c == ']'

/-- `' ' == c || '\t' == c`. -/
def blank (c : Char) : Bool := c == ' ' || c == '\t'

/-- The indices that `parse_file` returns. -/
structure Spans where
  secS : ℕ
  secE : ℕ
  keyS : ℕ
  keyE : ℕ
  valueS : ℕ
  valueE : ℕ
  deriving DecidableEq, Repr

/-- Where `parse_file` stands: at the head of its outer loop, which looks for the section, or
at the head of the loop over the lines of a section that it entered. -/
inductive Cursor where
  | outer (i : ℕ)
  | lines (secS secE i : ℕ)
  deriving DecidableEq, Repr

/-- A line of a section: it starts at `newlineStart` and ends before `i`. -/
structure LineAt where
  secS : ℕ
  secE : ℕ
  newlineStart : ℕ
  i : ℕ
  deriving DecidableEq, Repr

/-- What the scan for lines does next. -/
inductive Move where
  | stop
  | goto (c : Cursor)
  | line (l : LineAt)
  deriving DecidableEq, Repr

/-- `0 == i || newline(p[i - 1])`. -/
def atLineStart (buf : Text) : ℕ → Except Fault Bool
  | 0 => .ok true
  | i + 1 => do return newline (← read buf i)

/-- From a `[` at `i`: the header up to `]` is compared with the section; if they agree the
scan enters the section. -/
def enterSection (sec buf : Text) (i : ℕ) : Except Fault Move := do
  let sectionStart := i + 1
  -- find the ']'
  let i ← skipWhile (fun c => !rightBrace c && !endOfString c) buf (i + 1)
  if (← strncasecmp (buf.drop sectionStart) (cstr sec) (i - sectionStart)) = 0 then
    -- over space char after ']'
    let i ← skipWhile isspace buf (i + 1)
    return .goto (.lines sectionStart i i)
  else return .goto (.outer i)

/-- The scan of `parse_file` up to the next line of the section. -/
def advance (sec buf : Text) : Cursor → Except Fault Move
  | .outer i => do
    let c ← read buf i
    if endOfString c then return .stop
    else if (← atLineStart buf i) && leftBarce c then enterSection sec buf i
    else return .goto (.outer (i + 1))
  | .lines secS secE i => do
    let prev ← read buf (i - 1)
    let c ← read buf i
    if (newline prev && leftBarce c) || endOfString c then return .goto (.outer i)
    else
      -- get a new line
      let e ← skipWhile (fun c => !newline c && !endOfString c) buf i
      return .line ⟨secS, secE, i, e⟩

/-- The inner loop of `parse_file`: `valid` is the last index before `j` that holds no blank.
The result is the index of the `=` that ends the key. -/
def keyLoop (key buf : Text) (l : LineAt) : ℕ → ℕ → ℕ → Except Fault (Option ℕ)
  | 0, _, _ => .ok none
  | fuel + 1, j, valid =>
    if j < l.i then do
      if (← read buf j) = '=' then return none
      else
        let j := j + 1
        let c ← read buf j
        let valid := if blank c || c == '=' then valid else j
        if c = '=' then
          if (← strncasecmp (cstr key) (buf.drop l.newlineStart)
              (valid - l.newlineStart + 1)) = 0 then return some j
          else keyLoop key buf l fuel j valid
        else keyLoop key buf l fuel j valid
    else .ok none

/-- What `parse_file` does with a line: the indices, if the line sets the key. -/
def matchLine (key buf : Text) (l : LineAt) : Except Fault (Option Spans) := do
  if (← read buf l.newlineStart) = '#' then return none
  else
    match ← keyLoop key buf l (l.i - l.newlineStart + 1) l.newlineStart l.newlineStart with
    | none => return none
    | some j =>
      let valid ← skipWhile blank buf (j + 1)
      return some ⟨l.secS, l.secE, l.newlineStart, j - 1, valid, l.i⟩

/-- One iteration of the loops of `parse_file`. -/
def parseStep (sec key buf : Text) : Loop.Body Cursor (Option Spans) Fault := fun c => do
  match ← advance sec buf c with
  | .stop => return .inr none
  | .goto c => return .inl c
  | .line l =>
    match ← matchLine key buf l with
    | some spans => return .inr (some spans)
    | none => return .inl (.lines l.secS l.secE (l.i + 1))

/-- `strlen(s) != 0`, for the C string of `s`. -/
def strlenPos (s : Text) : Bool := s.takeWhile (· != nul) != []

/-- `parse_file`; `none` says that it returns 0. -/
def parseFile (sec key buf : Text) : Except Fault (Option Spans) :=
  if !strlenPos sec || !strlenPos key then .error .assertFailed
  else
    match Loop.run (parseStep sec key buf) (2 * buf.length + 2) (.outer 0) with
    | .ok (some r) => .ok r
    | .ok none => .error .diverges
    | .error e => .error e

/-! ### Reading a value -/

/-- `read_profile_string`: the memory of `value` afterwards and whether the key was found. -/
def readProfileString (sec key value : Text) (size : ℕ) (file : Option Text) :
    Except Fault (Text × Bool) := do
  if !strlenPos sec || !strlenPos key || size == 0 then throw .assertFailed
  match ← loadIniFile file with
  | none => return (value, false)
  | some buf =>
    match ← parseFile sec key buf with
    | none => return (value, false)
    | some spans =>
      let cpcount := min (spans.valueE - spans.valueS) (size - 1)
      return ((buf.drop spans.valueS).take cpcount ++ nul :: value.drop (cpcount + 1), true)

/-- The C string at the start of a memory. -/
def ofCStr (mem : Text) : Except Fault Text :=
  if nul ∈ mem then .ok (mem.takeWhile (· != nul)) else .error .outOfBounds

/-- What the stack holds where `readStr` puts its buffer. -/
structure StackBuf where
  bytes : Text
  length_bytes : bytes.length = 1024

/-- The loop of `readStr`, which cuts the string at the first blank. -/
def trimBuf : Text → Text
  | [] => []
  | c :: s => if blank c || c == nul then nul :: s else c :: trimBuf s

/-- `readStr`, which ignores whether the key was found. -/
def readStr (file : Option Text) (stack : StackBuf) (sec key : Text) : Except Fault Text := do
  let (buf, _) ← readProfileString sec key stack.bytes 1024 file
  ofCStr (trimBuf buf)

/-- `readInt`, by `read_profile_int`. -/
def readInt (file : Option Text) (sec key : Text) : Except Fault ℤ := do
  let (value, found) ← readProfileString sec key (List.replicate 32 nul) 32 file
  if found then return atoi (← ofCStr value) else return -1

end Conf
