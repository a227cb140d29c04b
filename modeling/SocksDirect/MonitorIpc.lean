import SocksDirect.ByteText

namespace SocksDirect.MonitorIpc

/-!
# The control protocol

`include/socksdirect/monitor_ipc.hpp`: one JSON object per line in each
direction.  A parser takes the rest of the text and returns what it read with
the rest behind it; the source keeps the whole text and a position instead.
The `for (;;)` and `while` loops are bounded by the length of the text, which
every round shortens.
-/

open ByteText

/-- `CtlRequest`. -/
structure CtlRequest where
  op : Text
  args : List Text
  deriving Repr, DecidableEq

/-- `CtlResponse`. -/
structure CtlResponse where
  ok : Bool
  lines : List Text
  error : Text
  deriving Repr, DecidableEq

/-- The double quote. -/
abbrev quote : UInt8 := 0x22

/-- The backslash. -/
abbrev backslash : UInt8 := 0x5c

/-- `%04x`, one digit. -/
def hexDigit (d : Nat) : UInt8 :=
  if d < 10 then UInt8.ofNat (0x30 + d) else UInt8.ofNat (0x61 + (d - 10))

/-- What `json_escape` writes for one byte. -/
def escapeByte (c : UInt8) : Text :=
  if c = backslash then
    [backslash, backslash]
  else if c = quote then
    [backslash, quote]
  else if c = 0x0a then
    [backslash, 0x6e]
  else if c = 0x0d then
    [backslash, 0x72]
  else if c = 0x09 then
    [backslash, 0x74]
  else if c < 0x20 then
    [backslash, 0x75, hexDigit (c.toNat / 4096 % 16), hexDigit (c.toNat / 256 % 16),
      hexDigit (c.toNat / 16 % 16), hexDigit (c.toNat % 16)]
  else
    [c]

/-- `json_escape`. -/
def jsonEscape (s : Text) : Text := quote :: (s.flatMap escapeByte ++ [quote])

/-- The white space that `skip_ws` skips. -/
def isWs (c : UInt8) : Bool := c = 0x20 || c = 0x09 || c = 0x0a || c = 0x0d

/-- `skip_ws`. -/
def skipWs (s : Text) : Text := s.dropWhile isWs

/-- The value of one hexadecimal digit of a `\u` escape. -/
def hexValue? (c : UInt8) : Option Nat :=
  if 0x30 ≤ c ∧ c ≤ 0x39 then
    some (c.toNat - 0x30)
  else if 0x61 ≤ c ∧ c ≤ 0x66 then
    some (10 + (c.toNat - 0x61))
  else if 0x41 ≤ c ∧ c ≤ 0x46 then some (10 + (c.toNat - 0x41)) else none

/-- The bytes a `\u` escape with value `v` stands for. -/
def unicodeBytes (v : Nat) : Text :=
  if v < 0x80 then
    [UInt8.ofNat v]
  else if v < 0x800 then
    [UInt8.ofNat (0xc0 ||| (v >>> 6)), UInt8.ofNat (0x80 ||| (v &&& 0x3f))]
  else
    [UInt8.ofNat (0xe0 ||| (v >>> 12)), UInt8.ofNat (0x80 ||| ((v >>> 6) &&& 0x3f)),
      UInt8.ofNat (0x80 ||| (v &&& 0x3f))]

/-- The byte of a two-character escape. -/
def simpleEscape? (esc : UInt8) : Option UInt8 :=
  if esc = quote then
    some quote
  else if esc = backslash then
    some backslash
  else if esc = 0x2f then
    some 0x2f
  else if esc = 0x6e then
    some 0x0a
  else if esc = 0x72 then
    some 0x0d
  else if esc = 0x74 then
    some 0x09
  else if esc = 0x62 then
    some 0x08
  else if esc = 0x66 then some 0x0c else none

/-- The four digits of a `\u` escape. -/
def unicodeValue? (h₁ h₂ h₃ h₄ : UInt8) : Option Nat :=
  match hexValue? h₁, hexValue? h₂, hexValue? h₃, hexValue? h₄ with
  | some d₁, some d₂, some d₃, some d₄ => some (((d₁ * 16 + d₂) * 16 + d₃) * 16 + d₄)
  | _, _, _, _ => none

/-- `parse_string` behind the opening quote; `out` is what was read so far. -/
def parseStringBody (out : Text) : Text → Option (Text × Text)
  | [] => none
  | c :: rest =>
    if c = quote then
      some (out, rest)
    else if c = backslash then
      match rest with
      | [] => none
      | esc :: rest =>
        if esc = 0x75 then
          match rest with
          | h₁ :: h₂ :: h₃ :: h₄ :: rest =>
            match unicodeValue? h₁ h₂ h₃ h₄ with
            | none => none
            | some v => parseStringBody (out ++ unicodeBytes v) rest
          | _ => none
        else
          match simpleEscape? esc with
          | none => none
          | some byte => parseStringBody (out ++ [byte]) rest
    else
      parseStringBody (out ++ [c]) rest

/-- `parse_string`. -/
def parseString : Text → Option (Text × Text)
  | [] => none
  | c :: rest => if c = quote then parseStringBody [] rest else none

/-- The element loop of `parse_string_array`. -/
def parseElements : Nat → List Text → Text → Option (List Text × Text)
  | 0, _, _ => none
  | fuel + 1, out, s =>
    match parseString (skipWs s) with
    | none => none
    | some (tmp, rest) =>
      match skipWs rest with
      | [] => none
      | c :: rest =>
        if c = 0x2c then
          parseElements fuel (out ++ [tmp]) rest
        else if c = 0x5d then some (out ++ [tmp], rest) else none

/-- `parse_string_array`. -/
def parseStringArray (s : Text) : Option (List Text × Text) :=
  match skipWs s with
  | [] => none
  | c :: rest =>
    if c = 0x5b then
      match skipWs rest with
      | [] => none
      | d :: behind =>
        if d = 0x5d then some ([], behind) else parseElements (rest.length + 1) [] (d :: behind)
    else
      none

/-- The elements of an encoded array, separated by commas. -/
def encodeElements : List Text → Text
  | [] => []
  | [a] => jsonEscape a
  | a :: rest => jsonEscape a ++ 0x2c :: encodeElements rest

/-- `encode_request`. -/
def encodeRequest (req : CtlRequest) : Text :=
  ascii "\x7b\"op\":" ++ jsonEscape req.op ++ ascii ",\"args\":[" ++
    encodeElements req.args ++ ascii "]\x7d\n"

/-- `encode_response`. -/
def encodeResponse (resp : CtlResponse) : Text :=
  if resp.ok then
    ascii "\x7b\"ok\":true,\"lines\":[" ++ encodeElements resp.lines ++ ascii "]\x7d\n"
  else
    ascii "\x7b\"ok\":false,\"error\":" ++ jsonEscape resp.error ++ ascii "\x7d\n"

/-- Drop the last byte if it is `c`. -/
def popBack (c : UInt8) (s : Text) : Text := if s.getLast? = some c then s.dropLast else s

/-- Both decoders drop one line feed and then one carriage return. -/
def stripLineEnd (s : Text) : Text := popBack 0x0d (popBack 0x0a s)

/--
The member loop of both decoders.  `member key out value` reads the value of
one member; it returns the updated record and the text behind the value.
-/
def decodeMembers (member : Text → Record → Text → Option (Record × Text)) :
    Nat → Record → Text → Option Record
  | 0, _, _ => none
  | fuel + 1, out, s =>
    match s with
    | [] => some out
    | _ :: _ =>
      if (skipWs s).head? = some 0x7d then
        some out
      else
        match parseString (skipWs s) with
        | none => none
        | some (key, rest) =>
          match skipWs rest with
          | [] => none
          | colon :: rest =>
            if colon = 0x3a then
              match member key out (skipWs rest) with
              | none => none
              | some (out, rest) =>
                match skipWs rest with
                | [] => none
                | c :: rest =>
                  if c = 0x2c then
                    decodeMembers member fuel out rest
                  else if c = 0x7d then some out else none
            else
              none

/-- Both decoders expect an object and read its members. -/
def decodeObject (member : Text → Record → Text → Option (Record × Text)) (empty : Record)
    (s : Text) : Option Record :=
  match skipWs (stripLineEnd s) with
  | [] => none
  | c :: rest =>
    if c = 0x7b then decodeMembers member (rest.length + 1) empty rest else none

/-- The value of an unknown member of a request: a string or an array. -/
def skipValue (s : Text) : Option Text :=
  match s with
  | [] => none
  | c :: _ =>
    if c = quote then
      (parseString s).map Prod.snd
    else if c = 0x5b then (parseStringArray s).map Prod.snd else none

/-- The locals of `decode_request`. -/
structure RequestDraft where
  request : CtlRequest
  gotOp : Bool
  gotArgs : Bool
  deriving Repr, DecidableEq

/-- One member of a request. -/
def requestMember (key : Text) (out : RequestDraft) (s : Text) : Option (RequestDraft × Text) :=
  if key = ascii "op" then
    (parseString s).map fun (op, rest) =>
      ({ out with request := { out.request with op := op }, gotOp := true }, rest)
  else if key = ascii "args" then
    (parseStringArray s).map fun (args, rest) =>
      ({ out with request := { out.request with args := args }, gotArgs := true }, rest)
  else
    (skipValue s).map fun rest => (out, rest)

/-- `decode_request`; `none` is the return value false. -/
def decodeRequest (s : Text) : Option CtlRequest :=
  match decodeObject requestMember ⟨⟨[], []⟩, false, false⟩ s with
  | none => none
  | some draft => if draft.gotOp && draft.gotArgs then some draft.request else none

/-- The locals of `decode_response`. -/
structure ResponseDraft where
  response : CtlResponse
  gotOk : Bool
  deriving Repr, DecidableEq

/-- `s.compare(pos, n, literal) == 0` and the text behind the literal. -/
def stripLiteral? (literal : Text) (s : Text) : Option Text :=
  if s.take literal.length = literal then some (s.drop literal.length) else none

/-- One member of a response. -/
def responseMember (key : Text) (out : ResponseDraft) (s : Text) : Option (ResponseDraft × Text) :=
  if key = ascii "ok" then
    match stripLiteral? (ascii "true") s with
    | some rest => some ({ response := { out.response with ok := true }, gotOk := true }, rest)
    | none =>
      (stripLiteral? (ascii "false") s).map fun rest =>
        ({ response := { out.response with ok := false }, gotOk := true }, rest)
  else if key = ascii "lines" then
    (parseStringArray s).map fun (lines, rest) =>
      ({ out with response := { out.response with lines := lines } }, rest)
  else if key = ascii "error" then
    (parseString s).map fun (error, rest) =>
      ({ out with response := { out.response with error := error } }, rest)
  else
    match skipValue s with
    | some rest => some (out, rest)
    | none =>
      if s.head? = some quote ∨ s.head? = some 0x5b then
        none
      else
        ((stripLiteral? (ascii "true") s).orElse fun _ =>
          (stripLiteral? (ascii "false") s).orElse fun _ => stripLiteral? (ascii "null") s).map
          fun rest => (out, rest)

/-- `decode_response`; `none` is the return value false. -/
def decodeResponse (s : Text) : Option CtlResponse :=
  match decodeObject responseMember ⟨⟨false, [], []⟩, false⟩ s with
  | none => none
  | some draft => if draft.gotOk then some draft.response else none

/-- The text before the line feed, which `drain_ctl_conn` takes as one line. -/
def cutLine (stream : Text) : Text := stream.takeWhile (· ≠ 0x0a)

/-- The longest text that both readers keep, `1 << 20`. -/
def lineLimit : Nat := 1 <<< 20

/-- `read_line`: it gives up one byte behind the limit. -/
def readLine (stream : Text) : Text := (cutLine stream).take (lineLimit + 1)

end SocksDirect.MonitorIpc
