import QCLib.Foundations.StepRun
import QCLib.Http.HttpServer

/-!
# Segmentation

How the bytes of one request are cut into chunks. The parser resumes exactly
(`parseRequest_append`): whatever arrives later, a call that used up less than a request may be
replaced by a call on all the bytes. What does not resume is the body: a `POST` body is whatever is
in the buffer when the headers end, and the length that was announced is not looked at. So the
request that is passed on has the whole body exactly when no chunk ends after the blank line and
before the end of the body (`segmented_iff`).

Times of arrival differ between two ways of cutting and are left out of the comparison.

A request is a text that a client writes (`RequestText`): a method, a target, a version, header
lines with a colon in them, and a body. `Consumed` says what a connection has made of the bytes of
such a text up to some point; it is kept by a chunk inside the head (`Consumed.inside`) and says
what happens when a chunk crosses the end of the head (`Consumed.across`).

The condition is exact for every way of cutting, into any number of chunks, empty ones among them:
there is no other way to lose a part of the body, and the head cannot be damaged at all.
-/

open StepRun

namespace QCLib

variable {t : Int} {context context' : HttpContext} {buf buf' line rest : Buffer} {ok : Bool}
  {request : HttpRequest} {r : Parsed}

/-! ### Resuming -/

/-- What a call would have done if more bytes had been there from the start. -/
def Parsed.extend (t : Int) (m : Buffer) : Parsed → Option Parsed
  | .assertFailed => some .assertFailed
  | .returned ok context buf =>
    if context.state = .kGotAll then
      if context.request.method = .kPost then
        some (.returned ok { context with request := context.request.setBody m } [])
      else some (.returned ok context (buf ++ m))
    else if ok then parseRequest t context (buf ++ m)
    else some (.returned false context (buf ++ m))

/-- **The parser resumes**: bytes that arrive later are parsed as if they had been there. -/
theorem parseRequest_append (hstate : context.state ≠ .kGotAll)
    (h : parseRequest t context buf = some r) (m : Buffer) :
    parseRequest t context (buf ++ m) = r.extend t m := by
  revert h
  refine parse_induction (t := t) (motive := fun context buf ↦
    parseRequest t context buf = some r → parseRequest t context (buf ++ m) = r.extend t m) ?_
    hstate
  intro context buf hstate ih h
  have hturn := turnOf t buf hstate
  rw [parseRequest_eq hstate] at h
  rw [parseRequest_eq hstate]
  obtain ⟨state, request⟩ := context
  generalize hnext : parseTurn t ⟨state, request⟩ buf = next at hturn h
  cases hturn with
  | wait hs hline =>
    obtain rfl := Option.some.inj h
    simp only [Parsed.extend, if_neg hstate, if_true]
    exact (parseRequest_eq hstate).symm
  | aborted hs hline hprocess =>
    obtain rfl := Option.some.inj h
    simp only at hs
    subst hs
    simp only [parseTurn, findCRLF_append hline m, hprocess, ParseTurn.finish, Parsed.extend]
  | rejected hs hline hprocess =>
    obtain rfl := Option.some.inj h
    simp only at hs
    subst hs
    simp only [parseTurn, findCRLF_append hline m, hprocess, ParseTurn.finish, Parsed.extend,
      reduceCtorEq, if_false, Bool.false_eq_true]
  | @accepted line rest request' hs hline hprocess =>
    simp only at hs
    subst hs
    simp only [parseTurn, findCRLF_append hline m, hprocess, HttpContext.receiveRequestLine]
    exact ih _ _ hnext h
  | @header line rest field value colon hs hline hsplit =>
    simp only at hs
    subst hs
    simp only [parseTurn, findCRLF_append hline m, hsplit]
    exact ih _ _ hnext h
  | @blank line rest field hs hline hsplit =>
    simp only at hs
    subst hs
    simp only [parseTurn, findCRLF_append hline m, hsplit, HttpContext.receiveHeaders]
    exact ih _ _ hnext h
  | postBody hs hpost =>
    obtain rfl := Option.some.inj h
    simp only at hs hpost
    subst hs
    simp [parseTurn, hpost, ParseTurn.finish, Parsed.extend, HttpContext.receiveBody,
      HttpRequest.setBody]
  | noBody hs hpost =>
    obtain rfl := Option.some.inj h
    simp only at hs hpost
    subst hs
    simp [parseTurn, hpost, ParseTurn.finish, Parsed.extend, HttpContext.receiveBody]

/-! ### Times of arrival -/

/-- The request, whenever it came. -/
def HttpRequest.eraseTime (r : HttpRequest) : HttpRequest := { r with receiveTime := 0 }

def HttpContext.eraseTime (c : HttpContext) : HttpContext :=
  { c with request := c.request.eraseTime }

def Parsed.eraseTime : Parsed → Parsed
  | .assertFailed => .assertFailed
  | .returned ok context buf => .returned ok context.eraseTime buf

/-- The time of receipt has no part in how a target is taken apart. -/
theorem setTarget_eraseTime (request : HttpRequest) (target : List UInt8) :
    setTarget request.eraseTime target = (setTarget request target).eraseTime := by
  unfold setTarget
  split <;> rfl

/-- The time of receipt has no part in reading the rest of the request line, and comes out of it
unchanged. -/
theorem processTarget_eraseTime (rest : List UInt8) (request : HttpRequest) :
    processTarget rest request.eraseTime =
      ((processTarget rest request).1, (processTarget rest request).2.eraseTime) := by
  unfold processTarget
  split
  · rfl
  · rw [setTarget_eraseTime]
    split <;> rfl

/-- A request line is read the same way whatever time the request carries. -/
theorem processRequestLine_eraseTime (line : List UInt8) (request : HttpRequest) :
    processRequestLine line request.eraseTime =
      (processRequestLine line request).map fun p ↦ (p.1, p.2.eraseTime) := by
  rcases hsplit : splitAtChar ' ' line with ⟨method, _ | ⟨space, rest⟩⟩
  · simp only [processRequestLine, hsplit, Option.map_some]
  · simp only [processRequestLine, hsplit, HttpRequest.setMethod, Option.map_map]
    by_cases hmethod : request.method = .kInvalid
    · have hmethod' : request.eraseTime.method = .kInvalid := hmethod
      simp only [if_pos hmethod, if_pos hmethod', Option.map_some, Function.comp]
      split_ifs
      · exact congrArg some
          (processTarget_eraseTime rest { request with method := HttpRequest.methodOf method })
      · rfl
    · have hmethod' : request.eraseTime.method ≠ .kInvalid := hmethod
      simp only [if_neg hmethod, if_neg hmethod', Option.map_none]

/-- A call with another time differs in the times only. -/
theorem parseRequest_eraseTime (hstate : context.state ≠ .kGotAll) :
    parseRequest 0 context.eraseTime buf = (parseRequest t context buf).map Parsed.eraseTime := by
  refine parse_induction (t := t) (motive := fun context buf ↦
    parseRequest 0 context.eraseTime buf = (parseRequest t context buf).map Parsed.eraseTime) ?_
    hstate
  intro context buf hstate ih
  have hturn := turnOf t buf hstate
  rw [parseRequest_eq hstate, parseRequest_eq (by exact hstate)]
  obtain ⟨state, request⟩ := context
  generalize hnext : parseTurn t ⟨state, request⟩ buf = next at hturn
  cases hturn with
  | wait hs hline =>
    simp only at hs
    rcases hs with rfl | rfl <;>
      simp only [parseTurn, HttpContext.eraseTime, hline, ParseTurn.finish, Option.map_some,
        Parsed.eraseTime]
  | aborted hs hline hprocess =>
    simp only at hs hprocess
    subst hs
    simp only [parseTurn, HttpContext.eraseTime, hline, processRequestLine_eraseTime, hprocess,
      ParseTurn.finish, Option.map_some, Option.map_none, Parsed.eraseTime]
  | rejected hs hline hprocess =>
    simp only at hs hprocess
    subst hs
    simp only [parseTurn, HttpContext.eraseTime, hline, processRequestLine_eraseTime, hprocess,
      ParseTurn.finish, Option.map_some, Parsed.eraseTime]
  | @accepted line rest request' hs hline hprocess =>
    simp only at hs hprocess
    subst hs
    simp only [parseTurn, HttpContext.eraseTime, hline, processRequestLine_eraseTime, hprocess,
      ParseTurn.finish, Option.map_some, HttpContext.receiveRequestLine]
    exact ih _ _ hnext
  | @header line rest field value colon hs hline hsplit =>
    simp only at hs
    subst hs
    simp only [parseTurn, HttpContext.eraseTime, hline, hsplit, ParseTurn.finish]
    exact ih _ _ hnext
  | @blank line rest field hs hline hsplit =>
    simp only at hs
    subst hs
    simp only [parseTurn, HttpContext.eraseTime, hline, hsplit, ParseTurn.finish,
      HttpContext.receiveHeaders]
    exact ih _ _ hnext
  | postBody hs hpost =>
    simp only at hs hpost
    subst hs
    have hturn' : parseTurn 0 (HttpContext.eraseTime ⟨.kExpectBody, request⟩) buf =
        .done true ⟨.kGotAll, (request.setBody buf).eraseTime⟩ [] := if_pos hpost
    rw [hturn']
    rfl
  | noBody hs hpost =>
    simp only at hs hpost
    subst hs
    have hturn' : parseTurn 0 (HttpContext.eraseTime ⟨.kExpectBody, request⟩) buf =
        .done true ⟨.kGotAll, request.eraseTime⟩ buf := if_neg hpost
    rw [hturn']
    rfl

/-! ### A well-formed request -/

/-- The bytes of the lines, each with its end. -/
def linesBytes (lines : List (List UInt8)) : List UInt8 := lines.flatMap (· ++ [13, 10])

/-- A well-formed `GET` or `POST` request. The server never looks at the length that was announced,
so the body of a `POST` may be any. -/
structure RequestText where
  post : Bool
  target : List UInt8
  minor : Bool
  headerLines : List (List UInt8)
  body : List UInt8
  target_noSpace : ' '.toUInt8 ∉ target
  target_oneLine : findCRLF target = none
  header_colon : ∀ line ∈ headerLines, ':'.toUInt8 ∈ line
  header_oneLine : ∀ line ∈ headerLines, findCRLF line = none
  body_get : post = false → body = []

namespace RequestText

/-- The method, as it is written. -/
def method (R : RequestText) : List UInt8 :=
  if R.post then ascii ['P', 'O', 'S', 'T'] else ascii ['G', 'E', 'T']

/-- The version, as it is written. -/
def versionText (R : RequestText) : List UInt8 :=
  ascii ['H', 'T', 'T', 'P', '/', '1', '.', if R.minor then '1' else '0']

/-- The request line. -/
def requestLine (R : RequestText) : List UInt8 :=
  R.method ++ ' '.toUInt8 :: (R.target ++ ' '.toUInt8 :: R.versionText)

/-- Everything up to the blank line. -/
def head (R : RequestText) : List UInt8 := linesBytes (R.requestLine :: (R.headerLines ++ [[]]))

/-- The whole request. -/
def bytes (R : RequestText) : List UInt8 := R.head ++ R.body

/-- The version. -/
def version (R : RequestText) : HttpVersion := if R.minor then .kHttp11 else .kHttp10

/-- What a header line adds. -/
def addLine (r : HttpRequest) (line : List UInt8) : HttpRequest :=
  r.addHeader (splitAtChar ':' line).1 (splitAtChar ':' line).2.tail

/-- The request that the request line describes. -/
def lineRequest (R : RequestText) : HttpRequest :=
  (setTarget { method := if R.post then .kPost else .kGet } R.target).setVersion R.version

/-- The request that the head describes. -/
def headRequest (R : RequestText) : HttpRequest := R.headerLines.foldl addLine R.lineRequest

/-- The request with a body, if it can have one. -/
def withBody (R : RequestText) (body : List UInt8) : HttpRequest :=
  if R.post then R.headRequest.setBody body else R.headRequest

end RequestText

/-- A separator that was written behind a text without it is found where it was written. -/
theorem splitAtChar_append {c : Char} {a : List UInt8} (h : c.toUInt8 ∉ a) (b : List UInt8) :
    splitAtChar c (a ++ c.toUInt8 :: b) = (a, c.toUInt8 :: b) := by
  have ha : ∀ x ∈ a, decide (x ≠ c.toUInt8) = true := by
    intro x hx
    exact decide_eq_true fun heq ↦ h (heq ▸ hx)
  rw [splitAtChar, List.span_eq_takeWhile_dropWhile, List.takeWhile_append_of_pos ha,
    List.dropWhile_append_of_pos ha]
  simp

/-- A range that contains the character is split at it. -/
theorem exists_splitAtChar {c : Char} (h : c.toUInt8 ∈ line) :
    ∃ field value, splitAtChar c line = (field, c.toUInt8 :: value) := by
  obtain ⟨field, value, rfl, hfield⟩ := List.eq_append_cons_of_mem h
  exact ⟨field, value, splitAtChar_append hfield value⟩

/-- A line that has no line end in it ends where its line end was written. -/
theorem findCRLF_line (h : findCRLF line = none) (rest : Buffer) :
    findCRLF (line ++ 13 :: 10 :: rest) = some (line, rest) := by
  fun_induction findCRLF line with
  | case1 => simp at h
  | case2 b bs hne ih =>
    rw [List.cons_append, findCRLF, ih (Option.map_eq_none_iff.1 h)]
    · rfl
    · intro rest' hb hrest
      cases bs with
      | nil => simp at hrest
      | cons b' bs' => exact hne bs' hb (by rw [(List.cons.inj hrest).1])
  | case3 => rfl

/-- A line that is continued by anything but a line feed. -/
theorem findCRLF_append_none {b : UInt8} (h : findCRLF line = none) (hb : b ≠ 10)
    (hrest : findCRLF (b :: rest) = none) : findCRLF (line ++ b :: rest) = none := by
  fun_induction findCRLF line with
  | case1 => simp at h
  | case2 a bs hne ih =>
    rw [List.cons_append, findCRLF, ih (Option.map_eq_none_iff.1 h)]
    · rfl
    · intro rest' ha hrest'
      cases bs with
      | nil => exact hb (List.cons.inj hrest').1
      | cons b' bs' => exact hne bs' ha (by rw [(List.cons.inj hrest').1])
  | case3 => exact hrest

namespace RequestText

variable (R : RequestText)

/-- The request line that the client writes has no line end in it. -/
theorem findCRLF_requestLine : findCRLF R.requestLine = none := by
  have hmethod : findCRLF R.method = none := by
    unfold method
    split <;> decide
  have hversion : findCRLF (' '.toUInt8 :: R.versionText) = none := by
    unfold versionText
    split <;> decide
  have htarget := findCRLF_append_none R.target_oneLine (by decide) hversion
  refine findCRLF_append_none hmethod (by decide) ?_
  rw [findCRLF, htarget]
  · rfl
  · intro rest hspace
    exact absurd hspace (by decide)

/-- The request line is accepted, whatever version was left by the request before. -/
theorem processRequestLine_requestLine (v : HttpVersion) :
    processRequestLine R.requestLine { version := v } = some (true, R.lineRequest) := by
  have hmethod : ' '.toUInt8 ∉ R.method := by
    unfold method
    split <;> decide
  have hknown : HttpRequest.methodOf R.method = if R.post then .kPost else .kGet := by
    unfold method
    split <;> rfl
  have hversion : versionOf R.versionText = some R.version := by
    unfold versionText version
    split <;> rfl
  rw [processRequestLine, requestLine, splitAtChar_append hmethod]
  have hmethod' : (if R.post then HttpMethod.kPost else .kGet) ≠ .kInvalid := by
    split <;> simp
  simp only [HttpRequest.setMethod, if_true, hknown, Option.map_some, hmethod', ne_eq,
    not_false_eq_true, decide_true]
  rw [processTarget, splitAtChar_append R.target_noSpace]
  simp only [hversion, lineRequest]
  unfold setTarget
  split <;> rfl

/-- The first of several lines is the one that `findCRLF` cuts off. -/
theorem findCRLF_linesBytes (h : findCRLF line = none) (lines : List (List UInt8)) (rest : Buffer) :
    findCRLF (linesBytes (line :: lines) ++ rest) = some (line, linesBytes lines ++ rest) := by
  rw [linesBytes, List.flatMap_cons, List.append_assoc, List.append_assoc]
  exact findCRLF_line h _

/-- **The header lines** are read one by one, up to the blank line that ends the head. -/
theorem parseRequest_headers {lines : List (List UInt8)}
    (hcolon : ∀ line ∈ lines, ':'.toUInt8 ∈ line) (hline : ∀ line ∈ lines, findCRLF line = none)
    (request : HttpRequest) (rest : Buffer) :
    parseRequest t ⟨.kExpectHeaders, request⟩ (linesBytes (lines ++ [[]]) ++ rest) =
      parseRequest t ⟨.kExpectBody, lines.foldl addLine request⟩ rest := by
  induction lines generalizing request with
  | nil =>
    rw [parseRequest_eq (by simp)]
    rfl
  | cons line lines ih =>
    obtain ⟨hcolon₀, hcolon⟩ := List.forall_mem_cons.1 hcolon
    obtain ⟨hline₀, hline⟩ := List.forall_mem_cons.1 hline
    obtain ⟨field, value, hsplit⟩ := exists_splitAtChar hcolon₀
    rw [parseRequest_eq (by simp), parseTurn, List.cons_append, findCRLF_linesBytes hline₀]
    simp only [hsplit, ParseTurn.finish]
    rw [ih hcolon hline, List.foldl_cons, addLine, hsplit]
    rfl

/-- Header lines add to the headers and leave the rest of the request. -/
theorem foldl_addLine_eq (lines : List (List UInt8)) (request : HttpRequest) :
    ∃ headers, lines.foldl addLine request = { request with headers } := by
  induction lines generalizing request with
  | nil => exact ⟨request.headers, rfl⟩
  | cons line lines ih =>
    obtain ⟨headers, h⟩ := ih (addLine request line)
    exact ⟨headers, h⟩

/-- The request after its head has the method of the text, and no body yet. -/
theorem headRequest_eq :
    R.headRequest.method = (if R.post then .kPost else .kGet) ∧ R.headRequest.body = [] := by
  obtain ⟨headers, h⟩ := foldl_addLine_eq R.headerLines R.lineRequest
  rw [headRequest, h]
  unfold lineRequest setTarget
  split <;> exact ⟨rfl, rfl⟩

theorem withBody_body (b : List UInt8) : (R.withBody b).body = if R.post then b else [] := by
  rw [withBody]
  split
  · rw [HttpRequest.setBody, R.headRequest_eq.2, List.nil_append]
  · exact R.headRequest_eq.2

/-- **The whole head**, and the bytes that are there when it ends. -/
theorem parseRequest_head (v : HttpVersion) (b : Buffer) :
    parseRequest 0 { request := { version := v } } (R.head ++ b) =
      some (.returned true ⟨.kGotAll, R.withBody b⟩ (if R.post then [] else b)) := by
  have htime : R.lineRequest.setReceiveTime 0 = R.lineRequest := by
    unfold lineRequest setTarget
    split <;> rfl
  rw [parseRequest_eq (by simp), parseTurn, head, findCRLF_linesBytes R.findCRLF_requestLine]
  simp only [processRequestLine_requestLine, ParseTurn.finish, HttpContext.receiveRequestLine,
    htime]
  rw [parseRequest_headers R.header_colon R.header_oneLine, ← headRequest,
    parseRequest_eq (by simp)]
  simp only [parseTurn, R.headRequest_eq.1, withBody]
  cases R.post <;> rfl

/-- **Less than the head** is no request yet, and no error. -/
theorem parseRequest_of_head_eq (v : HttpVersion) {p q : Buffer} (hq : q ≠ [])
    (h : R.head = p ++ q) :
    ∃ context buf, parseRequest 0 { request := { version := v } } p =
      some (.returned true context buf) ∧ context.state ≠ .kGotAll := by
  obtain ⟨r, hr⟩ : ∃ r, parseRequest 0 { request := { version := v } } p = some r :=
    exists_parseRequest (by simp)
  -- What the call would have done with the rest of the head is known.
  have hhead := R.parseRequest_head v []
  rw [List.append_nil, h, parseRequest_append (by simp) hr] at hhead
  cases r with
  | assertFailed => simp [Parsed.extend] at hhead
  | returned ok context buf =>
    rw [Parsed.extend] at hhead
    by_cases hall : context.state = .kGotAll
    · -- Then the rest of the head would be in the body, or still in the buffer.
      rw [if_pos hall] at hhead
      by_cases hpost : context.request.method = .kPost
      · rw [if_pos hpost] at hhead
        obtain ⟨-, heq, -⟩ := Parsed.returned.inj (Option.some.inj hhead)
        have hbody := congrArg (fun c : HttpContext ↦ c.request.body) heq
        simp only [HttpRequest.setBody, withBody_body, ite_self] at hbody
        exact absurd (List.append_eq_nil_iff.1 hbody).2 hq
      · rw [if_neg hpost, ite_self] at hhead
        obtain ⟨-, -, hbuf⟩ := Parsed.returned.inj (Option.some.inj hhead)
        exact absurd (List.append_eq_nil_iff.1 hbuf).2 hq
    · rw [if_neg hall] at hhead
      cases ok with
      | false => simp at hhead
      | true => exact ⟨context, buf, hr, hall⟩

end RequestText

/-! ### A connection -/

namespace HttpConnection

variable {s s' : HttpConnection} {chunk : HttpChunk}

/-- The bytes of the chunks. -/
def received (chunks : List HttpChunk) : Buffer := (chunks.map HttpChunk.bytes).flatten

/-- A connection between two requests. `HttpContext::reset` keeps the version. -/
def idle (v : HttpVersion) (answers : List HttpAnswer) : HttpConnection :=
  ⟨{ request := { version := v } }, [], answers⟩

/-- The connection has used up some bytes, and waits for the rest of the head. -/
structure Consumed (v : HttpVersion) (answers : List HttpAnswer) (s : HttpConnection)
    (p : Buffer) : Prop where
  notGotAll : s.context.state ≠ .kGotAll
  answers_eq : s.answers = answers
  resumes : ∀ m, parseRequest 0 s.context.eraseTime (s.buf ++ m) =
    parseRequest 0 { request := { version := v } } (p ++ m)

theorem consumed_idle (v : HttpVersion) (answers : List HttpAnswer) :
    Consumed v answers (idle v answers) [] := ⟨by simp [idle], rfl, fun _ ↦ rfl⟩

/-- A call is what it would have been on all the bytes at once. -/
theorem Consumed.parseRequest_eraseTime {v : HttpVersion} {answers : List HttpAnswer} {p : Buffer}
    (h : Consumed v answers s p) (m : Buffer) :
    (parseRequest t s.context (s.buf ++ m)).map Parsed.eraseTime =
      parseRequest 0 { request := { version := v } } (p ++ m) := by
  rw [← QCLib.parseRequest_eraseTime h.notGotAll, h.resumes]

/-- **A chunk inside the head** is consumed: it is kept in the buffer or read into the request, and
nothing is answered yet. -/
theorem Consumed.inside {R : RequestText} {v : HttpVersion} {answers : List HttpAnswer}
    {p q : Buffer} (h : Consumed v answers s p) (hq : q ≠ [])
    (hhead : R.head = p ++ chunk.bytes ++ q) :
    ∃ s', s.onLibMessageCallback chunk = some s' ∧ Consumed v answers s' (p ++ chunk.bytes) := by
  obtain ⟨context', buf', hparse, hstate'⟩ := R.parseRequest_of_head_eq v hq hhead
  have htime := h.parseRequest_eraseTime (t := chunk.receiveTime) chunk.bytes
  rw [hparse] at htime
  obtain ⟨r, hr, hreturned⟩ := Option.map_eq_some_iff.1 htime
  cases r with
  | assertFailed => simp [Parsed.eraseTime] at hreturned
  | returned ok context buf =>
    obtain ⟨rfl, rfl, rfl⟩ := Parsed.returned.inj hreturned
    have hstate : context.state ≠ .kGotAll := hstate'
    refine ⟨⟨context, buf, s.answers⟩, ?_, hstate, h.answers_eq, fun m ↦ ?_⟩
    · rw [onLibMessageCallback, hr, Option.bind_some, answer, if_pos rfl, if_neg hstate]
    · -- The bytes that follow are parsed after the call as they would have been in it.
      have hcall : parseRequest 0 s.context.eraseTime (s.buf ++ chunk.bytes) =
          some (.returned true context.eraseTime buf) := by
        rw [h.resumes, hparse]
      have happend := parseRequest_append (by exact h.notGotAll) hcall m
      rw [Parsed.extend, if_neg hstate', if_pos rfl, List.append_assoc, h.resumes] at happend
      rw [List.append_assoc]
      exact happend.symm

/-- **The chunk that ends the head** passes the request on, with the bytes after the head for its
body. -/
theorem Consumed.across {R : RequestText} {v : HttpVersion} {answers : List HttpAnswer}
    {p y : Buffer} (h : Consumed v answers s p) (hhead : p ++ chunk.bytes = R.head ++ y) :
    ∃ r : HttpRequest, r.eraseTime = R.withBody y ∧ s.onLibMessageCallback chunk =
      some ⟨{ request := { version := r.version } }, if R.post then [] else y,
        answers ++ [.request r]⟩ := by
  have htime := h.parseRequest_eraseTime (t := chunk.receiveTime) chunk.bytes
  rw [hhead, R.parseRequest_head] at htime
  obtain ⟨r, hr, hreturned⟩ := Option.map_eq_some_iff.1 htime
  cases r with
  | assertFailed => simp [Parsed.eraseTime] at hreturned
  | returned ok context buf =>
    obtain ⟨rfl, hcontext, rfl⟩ := Parsed.returned.inj hreturned
    have hstate : context.state = .kGotAll := congrArg HttpContext.state hcontext
    refine ⟨context.request, congrArg HttpContext.request hcontext, ?_⟩
    rw [onLibMessageCallback, hr, Option.bind_some, answer, if_pos rfl, if_pos hstate,
      h.answers_eq, HttpContext.reset]

/-- Nothing happens to an idle connection when nothing arrives. -/
theorem run_idle (v : HttpVersion) (answers : List HttpAnswer) {chunks : List HttpChunk}
    (h : received chunks = []) :
    run onLibMessageCallback (idle v answers) chunks = some (idle v answers) := by
  induction chunks with
  | nil => rfl
  | cons chunk chunks ih =>
    obtain ⟨hchunk, hchunks⟩ := List.append_eq_nil_iff.1 h
    have hstep : (idle v answers).onLibMessageCallback chunk = some (idle v answers) := by
      rw [onLibMessageCallback, hchunk, parseRequest_eq (by simp [idle])]
      rfl
    rw [run_cons, hstep]
    exact ih hchunks

/-- An answer that was given is not taken back. -/
theorem answers_prefix_of_run {chunks : List HttpChunk}
    (h : run onLibMessageCallback s chunks = some s') : s.answers <+: s'.answers := by
  induction chunks generalizing s with
  | nil =>
    obtain rfl := Option.some.inj h
    exact List.prefix_rfl
  | cons chunk chunks ih =>
    rw [run_cons] at h
    obtain ⟨s₁, hstep, hrest⟩ := Option.bind_eq_some_iff.1 h
    obtain ⟨r, -, hanswer⟩ := Option.bind_eq_some_iff.1 hstep
    refine List.IsPrefix.trans ?_ (ih hrest)
    cases r with
    | assertFailed => simp [answer] at hanswer
    | returned ok context buf =>
      simp only [answer] at hanswer
      split_ifs at hanswer <;> obtain rfl := Option.some.inj hanswer <;> simp

/-- The chunks pass on one request, with what `request` has in it whenever it came. -/
def PassesOn (s : HttpConnection) (chunks : List HttpChunk) (request : HttpRequest) : Prop :=
  ∃ s' r, run onLibMessageCallback s chunks = some s' ∧ s'.answers = s.answers ++ [.request r] ∧
    r.eraseTime = request.eraseTime

/-- No chunk ends behind the head and before the end of the body. -/
def Unbroken (R : RequestText) (p : Buffer) (chunks : List HttpChunk) : Prop :=
  ∀ pre, pre <+: chunks → (p ++ received pre).length < R.head.length ∨
    (p ++ received pre).length = R.bytes.length

@[simp] theorem received_nil : received [] = [] := rfl

@[simp] theorem received_cons (chunk : HttpChunk) (chunks : List HttpChunk) :
    received (chunk :: chunks) = chunk.bytes ++ received chunks := rfl

/-- A chunk that ends before the head does cannot break the body. -/
theorem unbroken_cons {R : RequestText} {p : Buffer} {chunks : List HttpChunk}
    (hp : p.length < R.head.length) :
    Unbroken R p (chunk :: chunks) ↔ Unbroken R (p ++ chunk.bytes) chunks := by
  constructor
  · intro h pre hpre
    simpa using h (chunk :: pre) (List.prefix_cons_inj chunk |>.2 hpre)
  · intro h pre hpre
    cases pre with
    | nil => exact .inl (by simpa using hp)
    | cons c pre =>
      obtain ⟨rfl, hpre'⟩ := List.cons_prefix_cons.1 hpre
      simpa using h pre hpre'

/-- A chunk that is answered by nothing passes nothing on, so the rest of the chunks has to. -/
theorem passesOn_cons {chunks : List HttpChunk} {request : HttpRequest}
    (hstep : s.onLibMessageCallback chunk = some s') (hanswers : s'.answers = s.answers) :
    PassesOn s (chunk :: chunks) request ↔ PassesOn s' chunks request := by
  simp only [PassesOn, run_cons, hstep, Option.bind_some, hanswers]

/-- **From the end of the head on**, everything has to be there. -/
theorem passesOn_across_iff {R : RequestText} {v : HttpVersion} {answers : List HttpAnswer}
    {p y : Buffer} {chunks : List HttpChunk} (h : Consumed v answers s p)
    (hhead : p ++ chunk.bytes = R.head ++ y) (hbody : y ++ received chunks = R.body) :
    PassesOn s (chunk :: chunks) (R.withBody R.body) ↔ received chunks = [] := by
  obtain ⟨r, hr, hstep⟩ := h.across hhead
  constructor
  · rintro ⟨s', r', hrun, hanswers, hr'⟩
    rw [run_cons, hstep, Option.bind_some] at hrun
    obtain ⟨later, hlater⟩ := answers_prefix_of_run hrun
    rw [hanswers, h.answers_eq, List.append_assoc, List.append_cancel_left_eq] at hlater
    obtain ⟨hsame, -⟩ := List.cons.inj hlater
    obtain rfl := HttpAnswer.request.inj hsame
    have hbody' : (R.withBody y).body = (R.withBody R.body).body := by
      have hbody₁ := congrArg HttpRequest.body hr
      have hbody₂ := congrArg HttpRequest.body hr'
      exact hbody₁.symm.trans hbody₂
    simp only [RequestText.withBody_body] at hbody'
    cases hpost : R.post with
    | false =>
      rw [R.body_get hpost] at hbody
      exact (List.append_eq_nil_iff.1 hbody).2
    | true =>
      simp only [hpost, if_true] at hbody'
      rw [hbody'] at hbody
      exact List.append_right_eq_self.1 hbody
  · intro hrest
    obtain rfl : y = R.body := by rwa [hrest, List.append_nil] at hbody
    have hbuf : (if R.post then [] else R.body) = [] := by
      split
      · rfl
      · exact R.body_get (Bool.eq_false_iff.2 ‹_›)
    rw [hbuf] at hstep
    refine ⟨idle r.version (answers ++ [.request r]), r, ?_, by rw [h.answers_eq]; rfl,
      by rw [← hr]; rfl⟩
    rw [run_cons, hstep]
    exact run_idle r.version _ hrest

/-- Once the head is complete, no chunk may be outstanding any more, unless the method takes no
body. -/
theorem unbroken_across_iff {R : RequestText} {p y : Buffer} {chunks : List HttpChunk}
    (hhead : p = R.head ++ y) (hbody : y ++ received chunks = R.body) :
    R.post = false ∨ Unbroken R p chunks ↔ received chunks = [] := by
  have hlen := congrArg List.length hbody
  rw [List.length_append] at hlen
  constructor
  · rintro (hget | hunbroken)
    · rw [R.body_get hget] at hbody
      exact (List.append_eq_nil_iff.1 hbody).2
    · have hnow := hunbroken [] List.nil_prefix
      simp only [received_nil, List.append_nil, hhead, List.length_append, RequestText.bytes]
        at hnow
      exact List.eq_nil_of_length_eq_zero (by omega)
  · intro hrest
    refine .inr fun pre hpre ↦ .inr ?_
    obtain ⟨post, rfl⟩ := hpre
    have hpre' : received pre ++ received post = [] := by
      rw [← hrest, received, received, received, List.map_append, List.flatten_append]
    rw [(List.append_eq_nil_iff.1 hpre').1, hhead, List.append_nil, RequestText.bytes, ← hbody,
      hrest, List.append_nil]

/-- **From inside the head**, the request is passed on as it was sent exactly when the chunks do
not break its body. -/
theorem passesOn_iff {R : RequestText} {v : HttpVersion} {answers : List HttpAnswer} {p : Buffer}
    {chunks : List HttpChunk} (h : Consumed v answers s p) (hp : p.length < R.head.length)
    (hbytes : p ++ received chunks = R.bytes) :
    PassesOn s chunks (R.withBody R.body) ↔ R.post = false ∨ Unbroken R p chunks := by
  induction chunks generalizing s p with
  | nil =>
    have hlen := congrArg List.length hbytes
    simp only [received_nil, List.append_nil, RequestText.bytes, List.length_append] at hlen
    omega
  | cons chunk chunks ih =>
    rw [unbroken_cons hp]
    rw [received_cons, ← List.append_assoc] at hbytes
    rcases List.append_eq_append_iff.1 hbytes with ⟨q, hhead, hrest⟩ | ⟨y, hhead, hbody⟩
    · by_cases hq : q = []
      · subst hq
        rw [List.append_nil] at hhead
        have hbody : [] ++ received chunks = R.body := by rw [hrest, List.nil_append,
          List.nil_append]
        have hhead' : p ++ chunk.bytes = R.head ++ [] := by rw [hhead, List.append_nil]
        exact (passesOn_across_iff h hhead' hbody).trans (unbroken_across_iff hhead' hbody).symm
      · obtain ⟨s', hstep, hconsumed⟩ := h.inside hq hhead
        rw [passesOn_cons hstep (hconsumed.answers_eq.trans h.answers_eq.symm)]
        refine ih hconsumed ?_ hbytes
        have hpos := List.length_pos_of_ne_nil hq
        have hlen := congrArg List.length hhead
        rw [List.length_append] at hlen
        omega
    · exact (passesOn_across_iff h hhead hbody.symm).trans
        (unbroken_across_iff hhead hbody.symm).symm

/-- A request that arrives in one piece is passed on with its whole body. -/
theorem passesOn_whole (R : RequestText) (v : HttpVersion) (answers : List HttpAnswer) (t : Int) :
    PassesOn (idle v answers) [⟨R.bytes, t⟩] (R.withBody R.body) :=
  (passesOn_across_iff (consumed_idle v answers) (List.nil_append _) (List.append_nil _)).2 rfl

/-- One request comes of the chunks, and it is the one that comes of all the bytes in one chunk. -/
def Segmented (s : HttpConnection) (chunks : List HttpChunk) (t : Int) : Prop :=
  ∃ s' s₀ r r₀, run onLibMessageCallback s chunks = some s' ∧
    run onLibMessageCallback s [⟨received chunks, t⟩] = some s₀ ∧
    s'.answers = s.answers ++ [.request r] ∧ s₀.answers = s.answers ++ [.request r₀] ∧
    r.eraseTime = r₀.eraseTime

/-- **Parsing is independent of segmentation** exactly for a `GET`, and for a `POST` of which no
chunk ends behind the blank line and before the end of the body. -/
theorem segmented_iff (R : RequestText) (v : HttpVersion) (answers : List HttpAnswer)
    (chunks : List HttpChunk) (hbytes : received chunks = R.bytes) (t : Int) :
    Segmented (idle v answers) chunks t ↔ R.post = false ∨
      ∀ pre, pre <+: chunks → (received pre).length < R.head.length ∨
        (received pre).length = R.bytes.length := by
  have hpos : ([] : Buffer).length < R.head.length := by
    simp [RequestText.head, linesBytes]
  have hsplit := passesOn_iff (consumed_idle v answers) hpos hbytes
  obtain ⟨s₀, r₀, hrun₀, hanswers₀, hr₀⟩ := passesOn_whole R v answers t
  rw [← hbytes] at hrun₀
  refine Iff.trans ⟨?_, ?_⟩ hsplit
  · rintro ⟨s', s₁, r, r₁, hrun, hrun₁, hanswers, hanswers₁, hr⟩
    obtain rfl := Option.some.inj (hrun₀.symm.trans hrun₁)
    have hsame := List.append_cancel_left (hanswers₀.symm.trans hanswers₁)
    obtain rfl := HttpAnswer.request.inj (List.cons.inj hsame).1
    exact ⟨s', r, hrun, hanswers, hr.trans hr₀⟩
  · rintro ⟨s', r, hrun, hanswers, hr⟩
    exact ⟨s', s₀, r, r₀, hrun, hrun₀, hanswers, hanswers₀, hr.trans hr₀.symm⟩

/-- `GET / HTTP/1.1`, with a header. -/
def sampleGet : RequestText where
  post := false
  target := ascii ['/']
  minor := true
  headerLines := [ascii ['H', 'o', 's', 't', ':', ' ', 'a']]
  body := []
  target_noSpace := by decide
  target_oneLine := by decide
  header_colon := by decide
  header_oneLine := by decide
  body_get _ := rfl

/-- Cut in the method, and between the last `CR` and `LF`. -/
theorem segmented_sampleGet :
    Segmented {} [⟨sampleGet.bytes.take 2, 0⟩, ⟨(sampleGet.bytes.drop 2).take 26, 1⟩,
      ⟨sampleGet.bytes.drop 28, 2⟩] 3 :=
  (segmented_iff sampleGet .kUnknown [] [⟨sampleGet.bytes.take 2, 0⟩,
    ⟨(sampleGet.bytes.drop 2).take 26, 1⟩, ⟨sampleGet.bytes.drop 28, 2⟩] (by decide) 3).2 (.inl rfl)

/-- `POST / HTTP/1.1`, with two bytes announced and there. -/
def samplePost : RequestText where
  post := true
  target := ascii ['/']
  minor := true
  headerLines :=
    [ascii ['C', 'o', 'n', 't', 'e', 'n', 't', '-', 'L', 'e', 'n', 'g', 't', 'h', ':', ' ', '2']]
  body := ascii ['a', 'b']
  target_noSpace := by decide
  target_oneLine := by decide
  header_colon := by decide
  header_oneLine := by decide
  body_get h := by simp at h

/-- The bodies of the requests that were passed on. -/
def bodies (s : HttpConnection) : List (List UInt8) := s.answers.filterMap fun answer ↦
  match answer with
  | .badRequest => none
  | .request r => some r.body

/-- The second byte of the body comes on its own. -/
theorem not_segmented_samplePost :
    received [⟨samplePost.head ++ ascii ['a'], 0⟩, ⟨ascii ['b'], 1⟩] = samplePost.bytes ∧
      ¬ Segmented {} [⟨samplePost.head ++ ascii ['a'], 0⟩, ⟨ascii ['b'], 1⟩] 2 := by
  refine ⟨by decide, ?_⟩
  rintro ⟨s', s₀, r, r₀, hrun, hrun₀, hanswers, hanswers₀, hr⟩
  have hcut : some (bodies s') = some [ascii ['a']] :=
    (congrArg (Option.map bodies) hrun).symm.trans (by decide)
  have hwhole : some (bodies s₀) = some [ascii ['a', 'b']] :=
    (congrArg (Option.map bodies) hrun₀).symm.trans (by decide)
  have hbody : r.eraseTime.body = r₀.eraseTime.body := congrArg HttpRequest.body hr
  rw [bodies, hanswers] at hcut
  rw [bodies, hanswers₀] at hwhole
  have hshort : r.body = ascii ['a'] := (List.cons.inj (Option.some.inj hcut)).1
  have hlong : r₀.body = ascii ['a', 'b'] := (List.cons.inj (Option.some.inj hwhole)).1
  exact absurd (hshort.symm.trans (hbody.trans hlong)) (by decide)

end HttpConnection

end QCLib
