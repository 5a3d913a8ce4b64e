import QCLib.Net.Packet

/-!
# HTTP requests

`HttpRequest.h` and `HttpContext.h`, the objects the HTTP server fills in while it parses. A string
is the list of its bytes, and a pointer range `[start, end)` is the list it spans. `none` is a
failed assertion.

What is kept are the fields that the parser sets and the functions that it calls, each under its own
name. `setMethod` has an assertion, and with it the only way in which a function of this file is
undefined. A header that comes a second time replaces the first one, as `operator[]` of a map does.
-/

namespace QCLib

/-- The bytes of an ASCII text. -/
def ascii (cs : List Char) : List UInt8 := cs.map Char.toUInt8

/-- `isspace`, in the C locale. -/
def isSpace (b : UInt8) : Bool := b = 32 ∨ 9 ≤ b ∧ b ≤ 13

/-- `HttpRequest::Method`. -/
inductive HttpMethod where
  | kInvalid
  | kGet
  | kPost
  | kHead
  | kPut
  | kDelete
  deriving DecidableEq, Repr

/-- `HttpRequest::Version`. -/
inductive HttpVersion where
  | kUnknown
  | kHttp10
  | kHttp11
  deriving DecidableEq, Repr

/-- The headers, by field. -/
abbrev HttpHeaders := Std.ExtTreeMap (List UInt8) (List UInt8)

/-- `HttpRequest`. Texts are bytes here, since that is what arrives. -/
structure HttpRequest where
  method : HttpMethod := .kInvalid
  version : HttpVersion := .kUnknown
  path : List UInt8 := []
  query : List UInt8 := []
  receiveTime : Int := 0
  body : List UInt8 := []
  headers : HttpHeaders := ∅
  deriving DecidableEq

namespace HttpRequest

/-- The comparisons in `HttpRequest::setMethod`. -/
def methodOf (m : List UInt8) : HttpMethod :=
  if m = ascii ['G', 'E', 'T'] then .kGet
  else if m = ascii ['P', 'O', 'S', 'T'] then .kPost
  else if m = ascii ['H', 'E', 'A', 'D'] then .kHead
  else if m = ascii ['P', 'U', 'T'] then .kPut
  else if m = ascii ['D', 'E', 'L', 'E', 'T', 'E'] then .kDelete
  else .kInvalid

/-- `HttpRequest::setMethod`, which asserts that no method has been set. -/
def setMethod (r : HttpRequest) (m : List UInt8) : Option (Bool × HttpRequest) :=
  if r.method = .kInvalid then some (methodOf m ≠ .kInvalid, { r with method := methodOf m })
  else none

/-- `HttpRequest::setPath`. -/
def setPath (r : HttpRequest) (path : List UInt8) : HttpRequest := { r with path }

/-- `HttpRequest::setQuery`. -/
def setQuery (r : HttpRequest) (query : List UInt8) : HttpRequest := { r with query }

/-- `HttpRequest::setVersion`. -/
def setVersion (r : HttpRequest) (version : HttpVersion) : HttpRequest := { r with version }

/-- `HttpRequest::setReceiveTime`. -/
def setReceiveTime (r : HttpRequest) (receiveTime : Int) : HttpRequest := { r with receiveTime }

/-- `HttpRequest::addHeader`: the field up to the colon, and the value without the blanks around
it. -/
def addHeader (r : HttpRequest) (field value : List UInt8) : HttpRequest :=
  { r with headers := r.headers.insert field ((value.dropWhile isSpace).rdropWhile isSpace) }

/-- `HttpRequest::setBody`, which appends to the body that is there. -/
def setBody (r : HttpRequest) (body : List UInt8) : HttpRequest := { r with body := r.body ++ body }

end HttpRequest

/-- `HttpContext::HttpRequestParseState`. -/
inductive HttpParseState where
  | kExpectRequestLine
  | kExpectHeaders
  | kExpectBody
  | kGotAll
  deriving DecidableEq, Repr

/-- `HttpContext`: how far the parser has come, and the request so far. -/
structure HttpContext where
  state : HttpParseState := .kExpectRequestLine
  request : HttpRequest := {}
  deriving DecidableEq

namespace HttpContext

/-- `HttpContext::receiveRequestLine`. -/
def receiveRequestLine (c : HttpContext) : HttpContext := { c with state := .kExpectHeaders }

/-- `HttpContext::receiveHeaders`. -/
def receiveHeaders (c : HttpContext) : HttpContext := { c with state := .kExpectBody }

/-- `HttpContext::receiveBody`. -/
def receiveBody (c : HttpContext) : HttpContext := { c with state := .kGotAll }

/-- `HttpContext::reset`. `HttpRequest::swap` leaves the version where it is. -/
def reset (c : HttpContext) : HttpContext :=
  { state := .kExpectRequestLine, request := { version := c.request.version } }

end HttpContext

end QCLib
