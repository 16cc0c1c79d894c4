import LanguageClient.Number.Reader
import LanguageClient.Uri.FilePath

/-!
The authority of an address: a host, perhaps with a user in front and a port behind. Brackets stand
only around a host that is a number of six groups and more.
-/

namespace LanguageClient.Uri.Authority

open FilePath (splitAt)

def isDigit (c : Char) : Bool := '0' ≤ c && c ≤ '9'

/-- Three digits at most, no zero in front, and below 256. -/
def isOctet (cs : List Char) : Bool :=
  cs ≠ [] && cs.all isDigit && cs.length ≤ 3 && (cs = ['0'] || cs.head? ≠ some '0') &&
    (Number.digits cs |>.1 |> Number.ofDigits) ≤ 255

/-- Four octets with points between them. -/
def isShortAddress (cs : List Char) : Bool :=
  let octets := splitAt '.' cs
  octets.length = 4 && octets.all isOctet

/-- Four hexadecimal digits at most. -/
def isGroup (cs : List Char) : Bool :=
  cs ≠ [] && cs.length ≤ 4 && cs.all fun c => isDigit c || ('a' ≤ c.toLower && c.toLower ≤ 'f')

/-- Groups on one side of two colons in a row; none at all leave a single empty part there. -/
def groupsBeside (parts : List (List Char)) : List (List Char) :=
  if parts = [[]] then [] else parts

/-- Eight groups, or fewer around one pair of colons in a row. -/
def areGroups (parts : List (List Char)) : Bool :=
  match (parts.drop 1).dropLast.span (· ≠ []) with
  | (before, [] :: after) =>
    let high := groupsBeside (parts.take 1 ++ before)
    let low := groupsBeside (after ++ parts.drop (parts.length - 1))
    high.all isGroup && low.all isGroup && high.length + low.length ≤ 7
  | _ => parts.length = 8 && parts.all isGroup

/-- The last part may be a short address, in the place of two groups. -/
def withoutShort (parts : List (List Char)) : List (List Char) :=
  match parts.getLast? with
  | some last => if isShortAddress last then parts.dropLast ++ [['0'], ['0']] else parts
  | none => parts

/-- An address in groups; a percent sign may name its zone. -/
def isLongAddress (cs : List Char) : Bool :=
  let (groups, zone) := cs.span (· ≠ '%')
  let parts := splitAt ':' groups
  (zone.isEmpty || (zone.length ≠ 1 && !zone.tail.contains '%')) && 3 ≤ parts.length &&
    areGroups (withoutShort parts)

/-- The letter `v`, a version, a point, and more. -/
def isFutureAddress (cs : List Char) : Bool :=
  let (version, rest) := (cs.drop 1).span (· ≠ '.')
  version ≠ [] && version.all (fun c => isGroup [c]) && 2 ≤ rest.length

/-- The host that stands where brackets are allowed. -/
def host (authority : List Char) : Except AuthorityFault (List Char) :=
  let place := ((splitAt '@' authority).getLast?).getD []
  match place.span (· ≠ '[') with
  | (before, '[' :: rest) =>
    let (host, after) := rest.span (· ≠ ']')
    let behind := after.drop 1
    if !before.isEmpty || !(behind.isEmpty || behind.head? = some ':') then .error .brackets
    else .ok host
  | (host, _) => .ok (host.takeWhile (· ≠ ':'))

def checkHost (cs : List Char) : Except AuthorityFault Unit :=
  if cs.head? = some 'v' then if isFutureAddress cs then .ok () else .error .future
  else if isShortAddress cs then .error .shortInBrackets
  else if isLongAddress cs then .ok ()
  else .error (.notAddress (String.ofList cs))

def checkBrackets (authority : List Char) : Except AuthorityFault Unit :=
  match authority.contains '[', authority.contains ']' with
  | true, true => (host authority).bind checkHost
  | false, false => .ok ()
  | _, _ => .error .brackets

/-- Signs that stand for marks between the parts of an address. -/
def disguises : List Nat := [
  0x2047, 0x2048, 0x2049, 0x2100, 0x2101, 0x2105, 0x2106, 0x2a74, 0xfe13, 0xfe16, 0xfe55, 0xfe56,
  0xfe5f, 0xfe6b, 0xff03, 0xff0f, 0xff1a, 0xff1f, 0xff20]

def checkSigns (authority : List Char) : Except AuthorityFault Unit :=
  if authority.any fun c => disguises.contains c.toNat then
    .error (.signs (String.ofList authority))
  else .ok ()

def check (authority : List Char) : Except AuthorityFault Unit := do
  checkBrackets authority
  checkSigns authority

theorem check_nil : check [] = .ok () := rfl

end LanguageClient.Uri.Authority
