import Recto.Phone.CanonicalJson
import Recto.Text.Percent
import Recto.Wallet.DerivationPath

/-!
# Pair links

A link `recto://pair?…` carries a code, the URL of a bootloader and a kind. The
phone and the host write it, and the phone reads it back from a scan. Every
writer documents that its links are read back as they were written; where the
code breaks this is what the last section makes exact.
-/

namespace Recto
namespace Phone

open Wallet (isWhiteSpace trim)

/-- `PairDeepLinkKind` -/
inductive PairDeepLinkKind where
  | service
  | bootloader
  deriving DecidableEq, Repr

/-- `PairDeepLinkPayload` -/
structure PairDeepLinkPayload where
  code : String
  bootloaderUrl : Option String
  kind : PairDeepLinkKind
  bootstrapBootloaderUrl : Option String := none
  bootstrapPairCode : Option String := none
  subject : Option String := none
  notAfter : Option ℤ := none
  deriving DecidableEq

/-! ## `PairDeepLinkConstants` -/

def urlScheme : String := "recto"
def pairHost : String := "pair"
def codeParamName : String := "code"
def bootloaderParamName : String := "bootloader"
def kindParamName : String := "kind"
def bootstrapBootloaderParamName : String := "bootstrap_bootloader"
def bootstrapPairCodeParamName : String := "bootstrap_pair_code"
def subjectParamName : String := "subject"
def notAfterParamName : String := "not_after"
def kindServiceWireValue : String := "service"
def kindBootloaderWireValue : String := "bootloader"

/-- `WireValueForKind` -/
def PairDeepLinkKind.wireValue : PairDeepLinkKind → String
  | .service => kindServiceWireValue
  | .bootloader => kindBootloaderWireValue

/-! ## Codes -/

def isDigitUnit (n : ℕ) : Bool := 48 ≤ n && n ≤ 57

def isAlphanumericUnit (n : ℕ) : Bool := isDigitUnit n || (65 ≤ n && n ≤ 90) || (97 ≤ n && n ≤ 122)

/-- How long a code of a kind is. -/
def PairDeepLinkKind.codeLength : PairDeepLinkKind → ℕ
  | .service => 8
  | .bootloader => 6

/-- What a code of a kind is made of. -/
def PairDeepLinkKind.codeUnit : PairDeepLinkKind → ℕ → Bool
  | .service => isAlphanumericUnit
  | .bootloader => isDigitUnit

/-- The check of a code, over the `char`s of a C# string. -/
def codeShape (kind : PairDeepLinkKind) (code : List Char) : Bool :=
  let units := code.flatMap utf16Units
  units.length = kind.codeLength && units.all kind.codeUnit

/-! ## `PairDeepLinkEmitter` -/

/-- What `ValidateCodeShape` throws for a code of a kind. -/
def shapeError (kind : PairDeepLinkKind) (code : List Char) : String :=
  let units := code.flatMap utf16Units
  let position := toString (units.findIdx fun n => !kind.codeUnit n)
  match kind with
  | .service =>
      if units.length ≠ 8 then "Service-kind code must be exactly 8 characters (got " ++
        toString units.length ++ ")."
      else "Service-kind code must be [A-Za-z0-9]\x7b8\x7d (got invalid char at position " ++ position ++ ")."
  | .bootloader =>
      if units.length ≠ 6 then "Bootloader-kind code must be exactly 6 characters (got " ++
        toString units.length ++ ")."
      else "Bootloader-kind code must be [0-9]\x7b6\x7d (got invalid char at position " ++ position ++ ")."

/-- `PairDeepLinkEmitter.ValidateCodeShape` -/
def validateCodeShape (code : List Char) (kind : PairDeepLinkKind) : Except String Unit :=
  if code = [] then .error "code is required and must be non-empty (got: empty/null)."
  else if codeShape kind code = true then .ok ()
  else .error (shapeError kind code)

/-- The parameter of a bootloader URL, when there is one. -/
def bootloaderParam (bootloaderUrl : Option (List Char)) : List Char :=
  match bootloaderUrl with
  | none | some [] => []
  | some url => '&' :: chars bootloaderParamName ++ '=' :: escapeDataString url

/-- The parameter of a kind; the default is left out. -/
def kindParam : PairDeepLinkKind → List Char
  | .service => []
  | kind => '&' :: chars kindParamName ++ '=' :: chars kind.wireValue

/-- The query of a link. -/
def linkQuery (code : List Char) (bootloaderUrl : Option (List Char)) (kind : PairDeepLinkKind) :
    List Char :=
  chars codeParamName ++ '=' :: code ++ (bootloaderParam bootloaderUrl ++ kindParam kind)

/-- The link of a code that was checked. -/
def linkOf (code : List Char) (bootloaderUrl : Option (List Char)) (kind : PairDeepLinkKind) : String :=
  String.ofList (chars (urlScheme ++ "://" ++ pairHost ++ "?") ++ linkQuery code bootloaderUrl kind)

/-- `PairDeepLinkEmitter.BuildPairUrl` -/
def emitPairUrl (code : String) (bootloaderUrl : Option String) (kind : PairDeepLinkKind) :
    Except String String := do
  validateCodeShape (chars code) kind
  return linkOf (chars code) (bootloaderUrl.map chars) kind

/-! ## `build_pair_url` -/

/-- `^[…]{n}$` with `match`: the end of the text, or a line feed that ends it. -/
def reMatch (kind : PairDeepLinkKind) (code : List Char) : Bool :=
  (code.take kind.codeLength).length = kind.codeLength &&
    (code.take kind.codeLength).all (fun c => kind.codeUnit c.toNat) &&
    (code.drop kind.codeLength = [] || code.drop kind.codeLength = ['\n'])

section
variable (repr : String → String)

/-- `_validate_code_shape` -/
def hostValidateCodeShape (code : String) (kind : PairDeepLinkKind) : Except String Unit :=
  if chars code = [] then .error "code is required and must be non-empty."
  else if reMatch kind (chars code) = true then .ok ()
  else
    match kind with
    | .service => .error ("Service-kind code must be [A-Za-z0-9]\x7b8\x7d (got: " ++ repr code ++ ").")
    | .bootloader => .error ("Bootloader-kind code must be [0-9]\x7b6\x7d (got: " ++ repr code ++ ").")

/-- `build_pair_url` -/
def buildPairUrl (code : String) (bootloaderUrl : Option String) (kind : PairDeepLinkKind) :
    Except String String := do
  hostValidateCodeShape repr code kind
  if kind = .bootloader ∧ (bootloaderUrl.map chars).getD [] = [] then
    throw "bootloader_url is required for Bootloader-kind pair URLs."
  return linkOf (chars code) (bootloaderUrl.map chars) kind

end

/-! ## `PairDeepLinkParser` -/

/-- `System.Uri`, as far as the parser reads it. -/
structure LinkUri where
  scheme : String
  host : String
  absolutePath : String
  query : String

/-- `string.Substring` from a position on. -/
def substringFrom (cs : List Char) (start : ℕ) : Except ClrError (List Char) :=
  if start ≤ cs.length then .ok (cs.drop start) else .error .argumentOutOfRange

/-- `string.Substring` up to a position. -/
def substringTo (cs : List Char) (length : ℕ) : Except ClrError (List Char) :=
  if length ≤ cs.length then .ok (cs.take length) else .error .argumentOutOfRange

/-- The name and the value of one parameter, decoded. -/
def readPair (pair : List Char) : Except ClrError (List Char × List Char) := do
  let (rawKey, rawVal) ← match pair.idxOf? '=' with
    | none => pure (pair, [])
    | some eq => do
        let key ← substringTo pair eq
        let val ← substringFrom pair (eq + 1)
        pure (key, val)
  return (unescapeDataString rawKey, unescapeDataString rawVal)

/-- `ParseQueryString`: the assignments to the dictionary in their order. -/
def parseQueryString (query : List Char) : Except ClrError (List (List Char × List Char)) :=
  let trimmed := if query.head? = some '?' then query.drop 1 else query
  ((trimmed.splitOn '&').filter fun pair => pair ≠ []).mapM readPair

/-- `OrdinalIgnoreCase`, with a text of ASCII letters. -/
def sameText (cs : List Char) (expected : String) : Bool :=
  cs.map Char.toLower = (chars expected).map Char.toLower

/-- `TryGetValue`: the last assignment of a name. -/
def tryGetValue (name : String) (pairs : List (List Char × List Char)) : Option (List Char) :=
  (pairs.reverse.find? fun pair => sameText pair.1 name).map Prod.snd

/-- A value without the white space around it; empty when it is not there. -/
def trimmedValue (name : String) (pairs : List (List Char × List Char)) : List Char :=
  ((tryGetValue name pairs).map trim).getD []

/-- An empty text is null. -/
def nonEmpty (cs : List Char) : Option String := if cs = [] then none else some (String.ofList cs)

/-- The host of a URL, and the first segment of its path where there is none. -/
def hostOrPathSegment (uri : LinkUri) : List Char :=
  if chars uri.host = [] then
    ((chars uri.absolutePath).dropWhile (· = '/')).takeWhile (· ≠ '/')
  else chars uri.host

/-- The kind a link names; service where it names none. -/
def kindOf (kindRaw : List Char) : Option PairDeepLinkKind :=
  if kindRaw = [] || sameText kindRaw kindServiceWireValue then some .service
  else if sameText kindRaw kindBootloaderWireValue then some .bootloader
  else none

section
variable (newUri : String → Option LinkUri) (longTryParse : String → Option ℤ)

/-- The record fields of a service link: both or neither. -/
def recordFields (kind : PairDeepLinkKind) (pairs : List (List Char × List Char)) :
    Option (String × ℤ) :=
  if kind = .service then do
    let subject ← tryGetValue subjectParamName pairs
    let notAfterRaw ← tryGetValue notAfterParamName pairs
    if subject.all isWhiteSpace then none
    else
      let notAfter ← longTryParse (String.ofList (trim notAfterRaw))
      if 0 < notAfter then some (String.ofList (trim subject), notAfter) else none
  else none

/-- The payload of the parameters. -/
def payloadOf (pairs : List (List Char × List Char)) : Option PairDeepLinkPayload :=
  let code := trimmedValue codeParamName pairs
  let bootloader := trimmedValue bootloaderParamName pairs
  let bootstrapBootloader := trimmedValue bootstrapBootloaderParamName pairs
  let bootstrapPairCode := trimmedValue bootstrapPairCodeParamName pairs
  match kindOf (trimmedValue kindParamName pairs) with
  | none => none
  | some kind =>
      if codeShape kind code = false then none
      else if kind = .bootloader ∧ bootloader = [] then none
      else
        let record := recordFields longTryParse kind pairs
        some
          { code := String.ofList code
            bootloaderUrl := nonEmpty bootloader
            kind := kind
            bootstrapBootloaderUrl := if kind = .service then nonEmpty bootstrapBootloader else none
            bootstrapPairCode :=
              if kind = .service ∧ codeShape .bootloader bootstrapPairCode = true then
                some (String.ofList bootstrapPairCode)
              else none
            subject := record.map Prod.fst
            notAfter := record.map Prod.snd }

/-- `PairDeepLinkParser.TryParse` -/
def tryParse (url : Option String) : Except ClrError (Option PairDeepLinkPayload) :=
  match url with
  | none => .ok none
  | some url =>
      if (chars url).all isWhiteSpace then .ok none
      else
        match newUri url with
        | none => .ok none
        | some uri =>
            if sameText (chars uri.scheme) urlScheme = false then .ok none
            else if sameText (hostOrPathSegment uri) pairHost = false then .ok none
            else do
              let pairs ← parseQueryString (chars uri.query)
              return payloadOf longTryParse pairs

end

end Phone
end Recto
