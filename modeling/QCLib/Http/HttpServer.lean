import QCLib.Http.HttpRequest

/-!
# The HTTP server

`http_server.cpp`: the resumable parser, and what a connection does with the bytes that arrive. The
parser keeps its place in the context and the bytes it could not use yet in the buffer, both of
which outlive the call, also after an error.

A turn of the loop of `parseRequest` is `parseTurn`. The loop has no bound of its own, so
`parseLoop` takes one and says `none` when it is exceeded; `parseRequest` runs it with a bound that
is enough wherever any is (`parseLoop_eq`).

The parser is a state machine with four states. A turn looks for a line in all of them but the last,
and either uses the line up or says that it needs more. After the blank line behind the headers the
rest of the buffer becomes the body of a `POST`, whatever its length. `parse_induction` is the
induction over the turns of a call, and the later modules use it instead of the recursion with a
bound.

A connection is the context and the buffer, with what has been answered; `onLibMessageCallback`
appends a chunk and calls the parser once.
-/

namespace QCLib

/-! ### Lines -/

/-- `Buffer::findCRLF`: the bytes before the first line end, and those after it. -/
def findCRLF : Buffer → Option (List UInt8 × Buffer)
  | 13 :: 10 :: rest => some ([], rest)
  | b :: rest => (findCRLF rest).map fun p ↦ (b :: p.1, p.2)
  | [] => none

/-- `std::find` for a character: the range up to it, and the range from it on. -/
def splitAtChar (c : Char) (bs : List UInt8) : List UInt8 × List UInt8 := bs.span (· ≠ c.toUInt8)

/-- The version that `processRequestLine` reads off the end of the line. -/
def versionOf (bs : List UInt8) : Option HttpVersion :=
  if bs.length = 8 ∧ bs.take 7 = ascii ['H', 'T', 'T', 'P', '/', '1', '.'] then
    if bs[7]? = some '1'.toUInt8 then some .kHttp11
    else if bs[7]? = some '0'.toUInt8 then some .kHttp10
    else none
  else none

/-- The path and the query of a request target. -/
def setTarget (r : HttpRequest) (target : List UInt8) : HttpRequest :=
  match splitAtChar '?' target with
  | (_, []) => r.setPath target
  | (path, question) => (r.setPath path).setQuery question

/-- `processRequestLine` once the method is known: the target, and the version after it. -/
def processTarget (rest : List UInt8) (request : HttpRequest) : Bool × HttpRequest :=
  match splitAtChar ' ' rest with
  | (_, []) => (false, request)
  | (target, _ :: version) =>
    match versionOf version with
    | some v => (true, (setTarget request target).setVersion v)
    | none => (false, setTarget request target)

/-- `processRequestLine`: whether the line is one, and the request after it. -/
def processRequestLine (line : List UInt8) (request : HttpRequest) :
    Option (Bool × HttpRequest) :=
  match splitAtChar ' ' line with
  | (_, []) => some (false, request)
  | (method, _ :: rest) => (request.setMethod method).map fun (known, request) ↦
    if known then processTarget rest request else (false, request)

/-! ### The parser -/

/-- What one turn of the loop in `parseRequest` leads to. -/
inductive ParseTurn where
  | assertFailed
  /-- `hasMore` is still set. -/
  | again (context : HttpContext) (buf : Buffer)
  | done (ok : Bool) (context : HttpContext) (buf : Buffer)
  deriving DecidableEq

/-- One turn. In the state `kGotAll` no branch applies and nothing changes. -/
def parseTurn (receiveTime : Int) (context : HttpContext) (buf : Buffer) : ParseTurn :=
  match context.state with
  | .kExpectRequestLine =>
    match findCRLF buf with
    | some (line, rest) =>
      match processRequestLine line context.request with
      | some (true, request) =>
        let context := { context with request := request.setReceiveTime receiveTime }
        .again context.receiveRequestLine rest
      | some (false, request) => .done false { context with request } buf
      | none => .assertFailed
    | none => .done true context buf
  | .kExpectHeaders =>
    match findCRLF buf with
    | some (line, rest) =>
      match splitAtChar ':' line with
      | (_, []) => .again context.receiveHeaders rest
      | (field, _ :: value) =>
        .again { context with request := context.request.addHeader field value } rest
    | none => .done true context buf
  | .kExpectBody =>
    if context.request.method = .kPost then
      .done true { context with request := context.request.setBody buf }.receiveBody []
    else .done true context.receiveBody buf
  | .kGotAll => .again context buf

/-- How `parseRequest` ends. -/
inductive Parsed where
  | assertFailed
  | returned (ok : Bool) (context : HttpContext) (buf : Buffer)
  deriving DecidableEq

/-- The loop of `parseRequest`, for at most the given number of turns. -/
def parseLoop (receiveTime : Int) : Nat → HttpContext → Buffer → Option Parsed
  | 0, _, _ => none
  | n + 1, context, buf =>
    match parseTurn receiveTime context buf with
    | .assertFailed => some .assertFailed
    | .again context buf => parseLoop receiveTime n context buf
    | .done ok context buf => some (.returned ok context buf)

/-- `parseRequest`: turns until one of them ends the loop. Every turn takes a line, so there are no
more turns than bytes. -/
def parseRequest (receiveTime : Int) (context : HttpContext) (buf : Buffer) : Option Parsed :=
  parseLoop receiveTime (buf.length + 1) context buf

variable {t : Int} {context context' : HttpContext} {buf buf' m line rest : Buffer} {ok : Bool}

/-! ### Lines, and what follows them -/

/-- The buffer is the line, its end and the rest. -/
theorem eq_of_findCRLF (h : findCRLF buf = some (line, rest)) : buf = line ++ 13 :: 10 :: rest := by
  fun_induction findCRLF buf generalizing line with
  | case1 rest' =>
    obtain ⟨rfl, rfl⟩ := Prod.mk.inj (Option.some.inj h)
    rfl
  | case2 b bs hne ih =>
    obtain ⟨⟨line', rest'⟩, hfind, heq⟩ := Option.map_eq_some_iff.1 h
    obtain ⟨rfl, rfl⟩ := Prod.mk.inj heq
    rw [List.cons_append, ← ih hfind]
  | case3 => simp at h

/-- Bytes that arrive later do not change the first line. -/
theorem findCRLF_append (h : findCRLF buf = some (line, rest)) (m : Buffer) :
    findCRLF (buf ++ m) = some (line, rest ++ m) := by
  fun_induction findCRLF buf generalizing line with
  | case1 rest' =>
    obtain ⟨rfl, rfl⟩ := Prod.mk.inj (Option.some.inj h)
    rfl
  | case2 b bs hne ih =>
    obtain ⟨⟨line', rest'⟩, hfind, heq⟩ := Option.map_eq_some_iff.1 h
    obtain ⟨rfl, rfl⟩ := Prod.mk.inj heq
    rw [List.cons_append, findCRLF, ih hfind]
    · rfl
    · intro rest'' hb hrest
      cases bs with
      | nil => simp [findCRLF] at hfind
      | cons b' bs' => exact hne bs' hb (by rw [(List.cons.inj hrest).1])
  | case3 => simp at h

/-- A line takes bytes, so the loop that cuts lines ends. -/
theorem length_of_findCRLF (h : findCRLF buf = some (line, rest)) : rest.length < buf.length := by
  rw [eq_of_findCRLF h]
  simp only [List.length_append, List.length_cons]
  omega

/-! ### The parser, turn by turn -/

/-- Everything a turn can do before all has been parsed. -/
inductive TurnOf (t : Int) (context : HttpContext) (buf : Buffer) : ParseTurn → Prop where
  | wait (hs : context.state = .kExpectRequestLine ∨ context.state = .kExpectHeaders)
      (hline : findCRLF buf = none) : TurnOf t context buf (.done true context buf)
  | aborted {line rest : Buffer} (hs : context.state = .kExpectRequestLine)
      (hline : findCRLF buf = some (line, rest))
      (hprocess : processRequestLine line context.request = none) :
      TurnOf t context buf .assertFailed
  | rejected {line rest : Buffer} {request : HttpRequest} (hs : context.state = .kExpectRequestLine)
      (hline : findCRLF buf = some (line, rest))
      (hprocess : processRequestLine line context.request = some (false, request)) :
      TurnOf t context buf (.done false { context with request } buf)
  | accepted {line rest : Buffer} {request : HttpRequest} (hs : context.state = .kExpectRequestLine)
      (hline : findCRLF buf = some (line, rest))
      (hprocess : processRequestLine line context.request = some (true, request)) :
      TurnOf t context buf (.again ⟨.kExpectHeaders, request.setReceiveTime t⟩ rest)
  | header {line rest field value : Buffer} {colon : UInt8} (hs : context.state = .kExpectHeaders)
      (hline : findCRLF buf = some (line, rest))
      (hsplit : splitAtChar ':' line = (field, colon :: value)) :
      TurnOf t context buf (.again ⟨.kExpectHeaders, context.request.addHeader field value⟩ rest)
  | blank {line rest field : Buffer} (hs : context.state = .kExpectHeaders)
      (hline : findCRLF buf = some (line, rest)) (hsplit : splitAtChar ':' line = (field, [])) :
      TurnOf t context buf (.again ⟨.kExpectBody, context.request⟩ rest)
  | postBody (hs : context.state = .kExpectBody) (hpost : context.request.method = .kPost) :
      TurnOf t context buf (.done true ⟨.kGotAll, context.request.setBody buf⟩ [])
  | noBody (hs : context.state = .kExpectBody) (hpost : context.request.method ≠ .kPost) :
      TurnOf t context buf (.done true ⟨.kGotAll, context.request⟩ buf)

theorem turnOf (t : Int) (buf : Buffer) (hstate : context.state ≠ .kGotAll) :
    TurnOf t context buf (parseTurn t context buf) := by
  obtain ⟨state, request⟩ := context
  cases state with
  | kExpectRequestLine =>
    rcases hline : findCRLF buf with _ | ⟨line, rest⟩
    · simpa only [parseTurn, hline] using .wait (.inl rfl) hline
    · rcases hprocess : processRequestLine line request with _ | ⟨_ | _, request'⟩
      · simpa only [parseTurn, hline, hprocess] using .aborted rfl hline hprocess
      · simpa only [parseTurn, hline, hprocess] using .rejected rfl hline hprocess
      · simpa only [parseTurn, hline, hprocess] using .accepted rfl hline hprocess
  | kExpectHeaders =>
    rcases hline : findCRLF buf with _ | ⟨line, rest⟩
    · simpa only [parseTurn, hline] using .wait (.inr rfl) hline
    · rcases hsplit : splitAtChar ':' line with ⟨field, _ | ⟨colon, value⟩⟩
      · simpa only [parseTurn, hline, hsplit] using .blank rfl hline hsplit
      · simpa only [parseTurn, hline, hsplit] using .header rfl hline hsplit
  | kExpectBody =>
    by_cases hpost : request.method = .kPost
    · simpa only [parseTurn, if_pos hpost] using .postBody rfl hpost
    · simpa only [parseTurn, if_neg hpost] using .noBody rfl hpost
  | kGotAll => exact absurd rfl hstate

/-- Every turn but the last consumes a line, and none of them leads to `kGotAll`. -/
theorem parseTurn_again (hstate : context.state ≠ .kGotAll)
    (h : parseTurn t context buf = .again context' buf') :
    buf'.length < buf.length ∧ context'.state ≠ .kGotAll := by
  have hturn := turnOf t buf hstate
  rw [h] at hturn
  cases hturn with
  | accepted _ hline _ | header _ hline _ | blank _ hline _ =>
    exact ⟨length_of_findCRLF hline, by simp⟩

/-- **Induction over the turns** of a call of `parseRequest`. -/
theorem parse_induction {motive : HttpContext → Buffer → Prop}
    (h : ∀ context buf, context.state ≠ .kGotAll →
      (∀ context' buf', parseTurn t context buf = .again context' buf' → motive context' buf') →
      motive context buf) (hstate : context.state ≠ .kGotAll) : motive context buf := by
  induction hlen : buf.length using Nat.strong_induction_on generalizing context buf with
  | _ n ih =>
    refine h context buf hstate fun context' buf' hturn ↦ ?_
    obtain ⟨hlt, hstate'⟩ := parseTurn_again hstate hturn
    exact ih buf'.length (by omega) hstate' rfl

/-- The bound of the loop does not matter once it is above the number of bytes. -/
theorem parseLoop_eq (hstate : context.state ≠ .kGotAll) :
    ∀ n, buf.length < n → parseLoop t n context buf = parseRequest t context buf := by
  refine parse_induction (t := t) (motive := fun context buf ↦ ∀ n, buf.length < n →
    parseLoop t n context buf = parseRequest t context buf) ?_ hstate
  intro context buf hstate ih n hn
  obtain ⟨k, rfl⟩ := Nat.exists_eq_succ_of_ne_zero (show n ≠ 0 by omega)
  rw [parseRequest, parseLoop, parseLoop]
  cases hturn : parseTurn t context buf with
  | assertFailed | done => rfl
  | again context' buf' =>
    obtain ⟨hlt, -⟩ := parseTurn_again hstate hturn
    exact (ih context' buf' hturn k (by omega)).trans
      (ih context' buf' hturn buf.length (by omega)).symm

/-- More turns than it takes change nothing. -/
theorem parseLoop_of_le {n k : Nat} {r : Parsed} (h : parseLoop t n context buf = some r)
    (hle : n ≤ k) : parseLoop t k context buf = some r := by
  induction n generalizing k context buf with
  | zero => simp [parseLoop] at h
  | succ n ih =>
    obtain ⟨k, rfl⟩ := Nat.exists_eq_succ_of_ne_zero (show k ≠ 0 by omega)
    rw [parseLoop] at h ⊢
    cases hturn : parseTurn t context buf with
    | assertFailed | done => simpa only [hturn] using h
    | again context' buf' =>
      simp only [hturn] at h
      exact ih h (by omega)

/-- How a turn ends a call of `parseRequest`, or goes on with it. -/
def ParseTurn.finish (t : Int) : ParseTurn → Option Parsed
  | .assertFailed => some .assertFailed
  | .again context buf => parseRequest t context buf
  | .done ok context buf => some (.returned ok context buf)

/-- **`parseRequest`, turn by turn.** -/
theorem parseRequest_eq (hstate : context.state ≠ .kGotAll) :
    parseRequest t context buf = (parseTurn t context buf).finish t := by
  rw [parseRequest, parseLoop]
  cases hturn : parseTurn t context buf with
  | assertFailed | done => rfl
  | again context' buf' =>
    obtain ⟨hlt, hstate'⟩ := parseTurn_again hstate hturn
    exact parseLoop_eq hstate' buf.length hlt

/-- **`parseRequest` terminates** unless everything has been parsed before. -/
theorem exists_parseRequest (hstate : context.state ≠ .kGotAll) :
    ∃ r, parseRequest t context buf = some r := by
  refine parse_induction (t := t) (motive := fun context buf ↦
    ∃ r, parseRequest t context buf = some r) ?_ hstate
  intro context buf hstate ih
  rw [parseRequest_eq hstate]
  cases hturn : parseTurn t context buf with
  | assertFailed => exact ⟨_, rfl⟩
  | again context' buf' => exact ih context' buf' hturn
  | done ok context' buf' => exact ⟨_, rfl⟩

/-! ### A connection -/

/-- What the server does for a client, in order. -/
inductive HttpAnswer where
  /-- The 400 answer. -/
  | badRequest
  /-- A call of `onHttpRequestInner`. -/
  | request (request : HttpRequest)
  deriving DecidableEq

/-- A connection: its context and its input buffer, and what the server has done for it. -/
structure HttpConnection where
  context : HttpContext := {}
  buf : Buffer := []
  answers : List HttpAnswer := []
  deriving DecidableEq

/-- Some bytes, and when they arrived. -/
structure HttpChunk where
  bytes : List UInt8
  receiveTime : Int
  deriving DecidableEq, Repr

namespace HttpConnection

/-- The calls `onLibMessageCallback` makes once `parseRequest` has returned. -/
def answer (s : HttpConnection) : Parsed → Option HttpConnection
  | .assertFailed => none
  | .returned ok context buf =>
    let answers := if ok then s.answers else s.answers ++ [.badRequest]
    if context.state = .kGotAll then
      some ⟨context.reset, buf, answers ++ [.request context.request]⟩
    else some ⟨context, buf, answers⟩

/-- `HttpServer::onLibMessageCallback`, for bytes that have just arrived; `none` when it does not
come back. -/
def onLibMessageCallback (s : HttpConnection) (chunk : HttpChunk) : Option HttpConnection :=
  (parseRequest chunk.receiveTime s.context (s.buf ++ chunk.bytes)).bind s.answer

end HttpConnection

end QCLib
