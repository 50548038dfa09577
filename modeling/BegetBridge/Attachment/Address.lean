import Mathlib

/-!
# Addresses that attachments may come from

The texts of IP addresses, what they denote, and which of them are public.

## Main definitions

* `isIP`: `net.isIP`, the family of an address
* `parseIpv4`, `parseIpv6`: the number, or the eight words
* `isPublicAttachmentAddress`: an attachment may be fetched from the address
-/

namespace BegetBridge.Attachment

/-! ## Texts of addresses -/

/-- The value of a hexadecimal digit in either case. -/
def digitValue (c : Char) : Nat :=
  if c.isDigit then c.toNat - '0'.toNat else c.toLower.toNat - 'a'.toNat + 10

def isHexDigit (c : Char) : Bool := c.isDigit || ('a' ≤ c.toLower && c.toLower ≤ 'f')

/-- `Number.parseInt(text, base)` of digits. -/
def ofDigits (base : Nat) (text : List Char) : Nat := text.foldl (fun n c => n * base + digitValue c) 0

/-- A number up to 255 in decimal digits, without zeros in front. -/
def octetText (text : List Char) : Bool :=
  !text.isEmpty && text.all Char.isDigit && (text.length == 1 || text.head? != some '0') &&
    ofDigits 10 text ≤ 255

def isIPv4 (text : List Char) : Bool :=
  let octets := text.splitOn '.'
  octets.length == 4 && octets.all octetText

/-- One to four hexadecimal digits. -/
def hextetText (text : List Char) : Bool := !text.isEmpty && text.length ≤ 4 && text.all isHexDigit

/-- `text.split("::")` -/
def splitGap : List Char → List (List Char)
  | [] => [[]]
  | ':' :: ':' :: text => [] :: splitGap text
  | c :: text =>
    match splitGap text with
    | [] => [[c]]
    | piece :: pieces => (c :: piece) :: pieces

/-- `text ? text.split(":") : []` -/
def groups (text : List Char) : List (List Char) := if text.isEmpty then [] else text.splitOn ':'

/-- How many of the eight words a text is, where four octets may stand for the last two. -/
def wordCount (octets : Bool) (text : List Char) : Option Nat :=
  match (groups text).getLast? with
  | none => some 0
  | some last =>
    if (groups text).dropLast.all hextetText then
      if hextetText last then some (groups text).length
      else if octets && isIPv4 last then some ((groups text).length + 1)
      else none
    else none

def zoneChar (c : Char) : Bool := c.isAlphanum || c == '-' || c == '.' || c == ':'

/-- Eight words, or fewer around a gap. -/
def isWords (text : List Char) : Bool :=
  match splitGap text with
  | [whole] => wordCount true whole == some 8
  | [left, right] =>
    match wordCount false left, wordCount true right with
    | some m, some n => m + n ≤ 7
    | _, _ => false
  | _ => false

def isIPv6 (text : List Char) : Bool :=
  match text.splitOn '%' with
  | [words] => isWords words
  | [words, zone] => isWords words && !zone.isEmpty && zone.all zoneChar
  | _ => false

/-- `net.isIP`: 4, 6, or 0 where the text is no address. -/
def isIP (text : List Char) : Nat := if isIPv4 text then 4 else if isIPv6 text then 6 else 0

/-! ## Version 4 -/

/-- `parseIpv4(address)` -/
def parseIpv4 (address : List Char) : Option (BitVec 32) :=
  if isIP address != 4 then none
  else
    let octets := (address.splitOn '.').map (ofDigits 10)
    some (octets.foldl (fun value octet => (value <<< 8) ||| BitVec.ofNat 32 octet) 0)

/-- `ipv4InRange(value, base, bits)` -/
def ipv4InRange (value : BitVec 32) (base : List Char) (bits : Nat) : Bool :=
  let mask : BitVec 32 := if bits == 0 then 0 else 0xffffffff#32 <<< (32 - bits)
  (value &&& mask) == ((parseIpv4 base).getD 0 &&& mask)

def blocked : List (String × Nat) :=
  [("0.0.0.0", 8), ("10.0.0.0", 8), ("100.64.0.0", 10), ("127.0.0.0", 8), ("169.254.0.0", 16), ("172.16.0.0", 12),
    ("192.0.0.0", 24), ("192.0.2.0", 24), ("192.88.99.0", 24), ("192.168.0.0", 16), ("198.18.0.0", 15),
    ("198.51.100.0", 24), ("203.0.113.0", 24), ("224.0.0.0", 4), ("240.0.0.0", 4)]

/-- `isPublicIpv4(address)` -/
def isPublicIpv4 (address : List Char) : Bool :=
  match parseIpv4 address with
  | none => false
  | some value => !blocked.any fun range => ipv4InRange value range.1.toList range.2

/-! ## Version 6 -/

/-- What stands before and after the last colon. -/
def atLastColon (text : List Char) : List Char × List Char :=
  let after := (text.reverse.takeWhile (· != ':')).reverse
  (text.take (text.length - after.length - 1), after)

/-- `parseIpv6(address)` -/
def parseIpv6 (address : List Char) : Option (List Nat) :=
  let value := ((address.map Char.toLower).splitOn '%').headD []
  if isIP value != 6 then none
  else
    -- four octets at the end are written as two words
    let plain : Option (List Char) :=
      if value.contains '.' then
        (parseIpv4 (atLastColon value).2).map fun ipv4 =>
          (atLastColon value).1 ++ ':' :: Nat.toDigits 16 (ipv4.toNat >>> 16) ++
            ':' :: Nat.toDigits 16 (ipv4.toNat &&& 0xffff)
      else some value
    plain.bind fun value =>
      let halves := splitGap value
      let left := groups (halves.headD [])
      let right := groups ((halves.drop 1).headD [])
      if halves.length > 2 || left.length + right.length > 8 ||
          (halves.length == 1 && left.length + right.length != 8) then none
      else
        let missing := 8 - left.length - right.length
        let words := (left ++ List.replicate missing ['0'] ++ right).map (ofDigits 16)
        if words.length == 8 && words.all (· ≤ 0xffff) then some words else none

/-- `${high >>> 8}.${high & 0xff}.${low >>> 8}.${low & 0xff}` -/
def embeddedIpv4 (high low : Nat) : List Char :=
  Nat.toDigits 10 (high >>> 8) ++ '.' :: Nat.toDigits 10 (high &&& 0xff) ++
    '.' :: Nat.toDigits 10 (low >>> 8) ++ '.' :: Nat.toDigits 10 (low &&& 0xff)

/-- `isPublicIpv6(address)` -/
def isPublicIpv6 (address : List Char) : Bool :=
  match parseIpv6 address with
  | none => false
  | some words =>
    let word (i : Nat) : Nat := words.getD i 0
    if (words.take 5).all (· == 0) && word 5 == 0xffff then isPublicIpv4 (embeddedIpv4 (word 6) (word 7))
    else if word 0 == 0x2002 then isPublicIpv4 (embeddedIpv4 (word 1) (word 2))
    else
      let globalUnicast := word 0 &&& 0xe000 == 0x2000
      let documentation := word 0 == 0x2001 && word 1 == 0x0db8
      let teredo := word 0 == 0x2001 && word 1 == 0x0000
      let orchid := word 0 == 0x2001 && word 1 &&& 0xfff0 == 0x0010
      let orchidV2 := word 0 == 0x2001 && word 1 &&& 0xfff0 == 0x0020
      let documentationV2 := word 0 == 0x3fff && word 1 &&& 0xf000 == 0x0000
      globalUnicast && !documentation && !documentationV2 && !teredo && !orchid && !orchidV2

/-- `isPublicAttachmentAddress(address)` -/
def isPublicAttachmentAddress (address : String) : Bool :=
  let family := isIP address.toList
  if family == 4 then isPublicIpv4 address.toList
  else if family == 6 then isPublicIpv6 address.toList
  else false

end BegetBridge.Attachment
