import SourceAtlas.Archive.Fault
import SourceAtlas.Archive.PrefixCode

/-!
# Inflating a deflate stream

A deflate stream is a sequence of blocks.  A block holds stored bytes, or symbols of two prefix
codes, which are literal bytes or copies of earlier output; the codes are fixed ones or stand at the
start of the block.

A reader asks for the output in portions, so the decoder can be stopped and resumed: `Inflate.run`
goes on until the output has reached a limit and the next step needs room for more (`Status.full`),
until a step needs input that is missing (`Status.starved`), or until the last block has ended
(`Status.ended`).  A step that needs no room, such as the end of a block and the start of the next
one, is taken even when the limit is reached; hence a fault there belongs to the portion before it.
-/

namespace SourceAtlas.Inflate

/-- The two codes of a block. -/
structure Codes where
  literals : PrefixCode
  distances : PrefixCode

/-- What the decoder does next. -/
inductive Phase
  /-- Read the header of a block. -/
  | header
  /-- Copy stored bytes. -/
  | stored (last : Bool) (remaining : Nat)
  /-- Read a symbol. -/
  | symbols (last : Bool) (codes : Codes)
  /-- Put out a literal byte. -/
  | literal (last : Bool) (codes : Codes) (byte : UInt8)
  /-- Repeat earlier output. -/
  | repeating (last : Bool) (codes : Codes) (length distance : Nat)
  /-- Nothing: the last block has ended. -/
  | finished

/-- The state of the decoder: the position in the input, in bits, the whole output so far, and what
comes next. -/
structure State where
  position : Nat
  output : ByteArray
  phase : Phase

/-- The start of a stream. -/
def start : State := ⟨0, .empty, .header⟩

/-- Why the decoder stops. -/
inductive Status
  | full
  | starved
  | ended
  | fault (fault : DeflateFault)
deriving DecidableEq

/-- The outcome of reading from the input: the position after what was read and what comes next. -/
abbrev Reading := Except Status (Nat × Phase)

/-! ## Tables of the format -/

/-- The least length and the number of extra bits for each length symbol, from 257 on. -/
def lengthTable : Array (Nat × Nat) :=
  #[(3, 0), (4, 0), (5, 0), (6, 0), (7, 0), (8, 0), (9, 0), (10, 0), (11, 1), (13, 1), (15, 1),
    (17, 1), (19, 2), (23, 2), (27, 2), (31, 2), (35, 3), (43, 3), (51, 3), (59, 3), (67, 4),
    (83, 4), (99, 4), (115, 4), (131, 5), (163, 5), (195, 5), (227, 5), (258, 0)]

/-- The least distance and the number of extra bits for each distance symbol. -/
def distanceTable : Array (Nat × Nat) :=
  #[(1, 0), (2, 0), (3, 0), (4, 0), (5, 1), (7, 1), (9, 2), (13, 2), (17, 3), (25, 3), (33, 4),
    (49, 4), (65, 5), (97, 5), (129, 6), (193, 6), (257, 7), (385, 7), (513, 8), (769, 8),
    (1025, 9), (1537, 9), (2049, 10), (3073, 10), (4097, 11), (6145, 11), (8193, 12),
    (12289, 12), (16385, 13), (24577, 13)]

/-- The order in which the lengths of the code for code lengths are stored. -/
def lengthOrder : List Nat :=
  [16, 17, 18, 0, 8, 7, 9, 6, 10, 5, 11, 4, 12, 3, 13, 2, 14, 1, 15]

/-- The code word lengths of the fixed code for literals and lengths. -/
def fixedLiteralLengths : List Nat :=
  List.replicate 144 8 ++ List.replicate 112 9 ++ List.replicate 24 7 ++ List.replicate 8 8

/-- The fixed codes. -/
def fixedCodes? : Option Codes :=
  match PrefixCode.ofLengths? true fixedLiteralLengths,
      PrefixCode.ofLengths? true (List.replicate 32 5) with
  | some literals, some distances => some ⟨literals, distances⟩
  | _, _ => none

/-! ## Block headers -/

/-- The lengths of the code for code lengths: three bits each in the order of `lengthOrder`, zero
for those that are not stored. -/
def storedLengths? (input : ByteArray) (position : Nat) : Nat → List Nat → Option (List (Nat × Nat))
  | 0, order => some (order.map fun symbol => (symbol, 0))
  | _ + 1, [] => some []
  | count + 1, symbol :: order =>
    match bitsAt? input position 3, storedLengths? input (position + 3) count order with
    | some length, some rest => some ((symbol, length) :: rest)
    | _, _ => none

/-- Append a run of one length if it fits. -/
def appendRun (wanted : Nat) (lengths : Array Nat) (length count : Nat) : Option (Array Nat) :=
  if wanted < lengths.size + count then none
  else some (lengths ++ Array.replicate count length)

/-- Read code word lengths until there are as many as wanted.  Symbols below 16 are lengths, 16
repeats the latest length and 17 and 18 stand for runs of zeros.  Each round adds a length, so
`fuel` rounds are enough if it is at least the number of lengths that are wanted. -/
def readLengths (input : ByteArray) (code : PrefixCode) (wanted : Nat) :
    Nat → Array Nat → Nat → Except Status (List Nat × Nat)
  | 0, lengths, position => .ok (lengths.toList, position)
  | fuel + 1, lengths, position =>
    if wanted ≤ lengths.size then .ok (lengths.toList, position)
    else
      let runOf (position bits base length : Nat) : Except Status (List Nat × Nat) :=
        match bitsAt? input position bits with
        | none => .error .starved
        | some extra =>
          match appendRun wanted lengths length (base + extra) with
          | none => .error (.fault .lengthRepeat)
          | some lengths => readLengths input code wanted fuel lengths (position + bits)
      match code.read input position with
      | .starved => .error .starved
      | .unused position => readLengths input code wanted fuel (lengths.push 0) position
      | .symbol value position =>
        if value < 16 then readLengths input code wanted fuel (lengths.push value) position
        else if value = 16 then
          match lengths.back? with
          | none =>
            .error (if (bitsAt? input position 2).isSome then .fault .lengthRepeat else .starved)
          | some latest => runOf position 2 3 latest
        else if value = 17 then runOf position 3 3 0
        else runOf position 7 11 0

/-- Read the codes at the start of a block. -/
def readCodes (input : ByteArray) (last : Bool) (position : Nat) : Reading :=
  match bitsAt? input position 5, bitsAt? input (position + 5) 5,
    bitsAt? input (position + 10) 4 with
  | some literalCount, some distanceCount, some lengthCount =>
    let literalCount := literalCount + 257
    let distanceCount := distanceCount + 1
    let lengthCount := lengthCount + 4
    if 286 < literalCount || 30 < distanceCount then .error (.fault .tooManySymbols)
    else
      match storedLengths? input (position + 14) lengthCount lengthOrder with
      | none => .error .starved
      | some stored =>
        let lengths := (List.range 19).map fun symbol => (stored.lookup symbol).getD 0
        match PrefixCode.ofLengths? false lengths with
        | none => .error (.fault .codeLengthsSet)
        | some code =>
          let wanted := literalCount + distanceCount
          match readLengths input code wanted wanted #[] (position + 14 + 3 * lengthCount) with
          | .error status => .error status
          | .ok (lengths, position) =>
            if lengths[256]? = some 0 then .error (.fault .missingEndOfBlock)
            else
              match PrefixCode.ofLengths? true (lengths.take literalCount) with
              | none => .error (.fault .literalLengthsSet)
              | some literals =>
                match PrefixCode.ofLengths? true (lengths.drop literalCount) with
                | none => .error (.fault .distancesSet)
                | some distances =>
                  .ok (position, .symbols last ⟨literals, distances⟩)
  | _, _, _ => .error .starved

/-- Read the header of a block. -/
def readHeader (input : ByteArray) (position : Nat) : Reading :=
  match bitsAt? input position 3 with
  | none => .error .starved
  | some bits =>
    let last := bits % 2 == 1
    let position := position + 3
    match bits / 2 with
    | 0 =>
      let position := (position + 7) / 8 * 8
      match bitsAt? input position 16, bitsAt? input (position + 16) 16 with
      | some length, some complement =>
        if length + complement ≠ 0xFFFF then .error (.fault .storedLengths)
        else .ok (position + 32, .stored last length)
      | _, _ => .error .starved
    | 1 =>
      match fixedCodes? with
      | some codes => .ok (position, .symbols last codes)
      | none => .error (.fault .blockType)
    | 2 => readCodes input last position
    | _ => .error (.fault .blockType)

/-! ## Symbols -/

/-- What follows the end of a block. -/
def afterBlock (last : Bool) : Phase :=
  if last then .finished else .header

/-- Read the extra bits of a length, and the distance that follows. -/
def readDistance (input : ByteArray) (last : Bool) (codes : Codes) (length bits position : Nat) :
    Reading :=
  match bitsAt? input position bits with
  | none => .error .starved
  | some extra =>
    match codes.distances.read input (position + bits) with
    | .starved => .error .starved
    | .unused _ => .error (.fault .distanceCode)
    | .symbol value position =>
      match distanceTable[value]? with
      | none => .error (.fault .distanceCode)
      | some (base, bits) =>
        match bitsAt? input position bits with
        | none => .error .starved
        | some further =>
          .ok (position + bits, .repeating last codes (length + extra) (base + further))

/-- Read a symbol. -/
def readSymbol (input : ByteArray) (last : Bool) (codes : Codes) (position : Nat) : Reading :=
  match codes.literals.read input position with
  | .starved => .error .starved
  | .unused _ => .error (.fault .literalLengthCode)
  | .symbol value position =>
    if value < 256 then .ok (position, .literal last codes (UInt8.ofNat value))
    else if value = 256 then .ok (position, afterBlock last)
    else
      match lengthTable[value - 257]? with
      | none => .error (.fault .literalLengthCode)
      | some (base, bits) => readDistance input last codes base bits position

/-! ## Output -/

/-- Append `count` bytes, each a copy of the one `distance` places before it. -/
def repeatBack (distance : Nat) : Nat → ByteArray → ByteArray
  | 0, output => output
  | count + 1, output =>
    repeatBack distance count (output.push ((byteAt? output (output.size - distance)).getD 0))

/-- The outcome of a step: the next state, or the state in which the decoder stops. -/
inductive Step
  | next (state : State)
  | stop (state : State) (status : Status)

/-- Take one step, with room for output up to the limit. -/
def step (input : ByteArray) (limit : Nat) : State → Step
  | ⟨position, output, phase⟩ =>
    let room := limit - output.size
    let reading (result : Reading) : Step :=
      match result with
      | .ok (position, phase) => .next ⟨position, output, phase⟩
      | .error status => .stop ⟨position, output, phase⟩ status
    match phase with
    | .header => reading (readHeader input position)
    | .symbols last codes => reading (readSymbol input last codes position)
    | .finished => .stop ⟨position, output, phase⟩ .ended
    | .stored last remaining =>
      let index := position / 8
      let count := min remaining (min room (input.size - index))
      if remaining = 0 then .next ⟨position, output, afterBlock last⟩
      else if room = 0 then .stop ⟨position, output, phase⟩ .full
      else if count = 0 then .stop ⟨position, output, phase⟩ .starved
      else
        .next ⟨position + 8 * count, output ++ input.extract index (index + count),
          .stored last (remaining - count)⟩
    | .literal last codes byte =>
      if room = 0 then .stop ⟨position, output, phase⟩ .full
      else .next ⟨position, output.push byte, .symbols last codes⟩
    | .repeating last codes length distance =>
      if room = 0 then .stop ⟨position, output, phase⟩ .full
      else if output.size < distance then
        .stop ⟨position, output, phase⟩ (.fault .distanceTooFar)
      else
        let count := min length room
        .next ⟨position, repeatBack distance count output,
          if count = length then .symbols last codes
          else .repeating last codes (length - count) distance⟩

/-- Take steps until the decoder stops. -/
def runFrom (input : ByteArray) (limit : Nat) : Nat → State → State × Status
  | 0, state => (state, .starved)
  | fuel + 1, state =>
    match step input limit state with
    | .next state => runFrom input limit fuel state
    | .stop state status => (state, status)

/-- Go on until the output reaches the limit, the input is used up or the stream has ended.  Apart
from the first one, a step that reads no bit follows one that does and is followed by one that does,
so there are at most twice as many steps as bits, and a few. -/
def run (input : ByteArray) (limit : Nat) (state : State) : State × Status :=
  runFrom input limit (16 * input.size + 8) state

/-- How many bytes of the input have been taken in. -/
def consumed (input : ByteArray) (state : State) (status : Status) : Nat :=
  if status = .starved then input.size else (state.position + 7) / 8

end SourceAtlas.Inflate
