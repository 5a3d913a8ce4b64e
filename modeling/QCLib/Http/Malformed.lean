import QCLib.Foundations.StepRun
import QCLib.Http.HttpServer

/-!
# Malformed requests

After a 400 answer the server closes only its own side of the connection, and keeps the context and
the buffer as the failed attempt left them. The next bytes re-enter the parser at the same line.

If the line does not begin with a method that is known, nothing was stored and it fails in the same
way again. If it does, the method is in the request already, and `setMethod` asserts that it is not:
the server is aborted by the first bytes after the answer (`MethodRejected`). There is no other way
to abort it, and none to make it loop (`safe_iff`).

`Safe` is the property, that no step aborts the server or keeps it in its loop; `MethodRejected` is
what has to be avoided, read off the connection before the step: its last answer was a 400, to a
line that begins with a method. `Inv` says what the states look like that a connection can be in.
After a rejected line nothing is taken out of the buffer, and that is why the next chunk decides,
whatever it is: `parseRequest_of_rejected` shows that no bytes that arrive can change how the line
begins.
-/

open StepRun

namespace QCLib

variable {t : Int} {context context' : HttpContext} {buf buf' line rest : Buffer} {ok : Bool}
  {request request' : HttpRequest}

/-! ### What a request line leaves in the request -/

/-- The line begins with a method that `setMethod` knows, and a space. -/
def startsWithMethod (line : List UInt8) : Prop :=
  match splitAtChar ' ' line with
  | (_, []) => False
  | (method, _) => HttpRequest.methodOf method ≠ .kInvalid

instance (line : List UInt8) : Decidable (startsWithMethod line) := by
  unfold startsWithMethod
  split <;> infer_instance

@[simp] theorem setTarget_method (target : List UInt8) :
    (setTarget request target).method = request.method := by
  unfold setTarget
  split <;> rfl

@[simp] theorem processTarget_method (rest : List UInt8) :
    (processTarget rest request).2.method = request.method := by
  unfold processTarget
  split
  · rfl
  · split <;> simp [HttpRequest.setVersion]

/-- A line that begins with no method leaves a request without one as it is. -/
theorem processRequestLine_of_unknown (hmethod : request.method = .kInvalid)
    (hline : ¬ startsWithMethod line) :
    processRequestLine line request = some (false, request) := by
  rcases hsplit : splitAtChar ' ' line with ⟨method, _ | ⟨space, rest⟩⟩
  · simp only [processRequestLine, hsplit]
  · have hunknown : HttpRequest.methodOf method = .kInvalid := by
      simpa [startsWithMethod, hsplit] using hline
    simp only [processRequestLine, hsplit, HttpRequest.setMethod, hmethod, hunknown, if_true,
      Option.map_some, ne_eq, not_true_eq_false, decide_false, Bool.false_eq_true, if_false]
    rw [← hmethod]

/-- A line that begins with a method gives it to the request, whether the line is accepted or
not. -/
theorem processRequestLine_of_known (hmethod : request.method = .kInvalid)
    (hline : startsWithMethod line) :
    ∃ ok request', processRequestLine line request = some (ok, request') ∧
      request'.method ≠ .kInvalid := by
  rcases hsplit : splitAtChar ' ' line with ⟨method, _ | ⟨space, rest⟩⟩
  · simp only [startsWithMethod, hsplit] at hline
  · simp only [startsWithMethod, hsplit] at hline
    let request₁ : HttpRequest := { request with method := HttpRequest.methodOf method }
    have hprocess : processRequestLine line request = some (processTarget rest request₁) := by
      simp only [processRequestLine, hsplit, HttpRequest.setMethod, hmethod, if_true,
        Option.map_some, hline, ne_eq, not_false_eq_true, decide_true, request₁]
    refine ⟨(processTarget rest request₁).1, (processTarget rest request₁).2, hprocess, ?_⟩
    rw [processTarget_method]
    exact hline

/-- A request that has one is given no other. -/
theorem processRequestLine_of_method (hmethod : request.method ≠ .kInvalid)
    (hline : startsWithMethod line) : processRequestLine line request = none := by
  rcases hsplit : splitAtChar ' ' line with ⟨method, _ | ⟨space, rest⟩⟩
  · simp only [startsWithMethod, hsplit] at hline
  · simp only [processRequestLine, hsplit, HttpRequest.setMethod, if_neg hmethod, Option.map_none]

/-! ### What a call leaves behind -/

namespace HttpConnection

/-- The call is safe: it does not start from `kGotAll`, it comes to an end, and no assertion
fails. -/
structure Safe (s : HttpConnection) (chunk : HttpChunk) : Prop where
  notGotAll : s.context.state ≠ .kGotAll
  terminates : ∃ n r, parseLoop chunk.receiveTime n s.context (s.buf ++ chunk.bytes) = some r
  asserts : ∀ n, parseLoop chunk.receiveTime n s.context (s.buf ++ chunk.bytes) ≠
    some .assertFailed

/-- The last answer was a 400, to a line that begins with a method. -/
def MethodRejected (s : HttpConnection) : Prop :=
  s.answers.getLast? = some .badRequest ∧
    ∃ line rest, findCRLF s.buf = some (line, rest) ∧ startsWithMethod line

end HttpConnection

/-- The parser has not stored a method before its time. -/
def HttpContext.Clean (context : HttpContext) : Prop :=
  context.state = .kExpectRequestLine → context.request.method = .kInvalid

/-- The parser has failed at the first line of the buffer, and stored the method it begins with. -/
structure Rejected (context : HttpContext) (buf : Buffer) (line rest : Buffer) : Prop where
  state : context.state = .kExpectRequestLine
  first : findCRLF buf = some (line, rest)
  method : context.request.method ≠ .kInvalid ↔ startsWithMethod line

/-- **A call on a clean context** returns: with a clean context again, or at a line it rejects. -/
theorem parseRequest_of_clean (t : Int) (buf : Buffer) (hstate : context.state ≠ .kGotAll)
    (hclean : context.Clean) :
    ∃ ok context' buf', parseRequest t context buf = some (.returned ok context' buf') ∧
      (ok = true → context'.Clean) ∧
      (ok = false → ∃ line rest, Rejected context' buf' line rest) := by
  revert hclean
  refine parse_induction (t := t) (motive := fun context buf ↦ context.Clean → ∃ ok context' buf',
    parseRequest t context buf = some (.returned ok context' buf') ∧ (ok = true → context'.Clean) ∧
      (ok = false → ∃ line rest, Rejected context' buf' line rest)) ?_ hstate
  intro context buf hstate ih hclean
  have hturn := turnOf t buf hstate
  rw [parseRequest_eq hstate]
  generalize hnext : parseTurn t context buf = next at hturn
  cases hturn with
  | wait hs hline => exact ⟨true, context, buf, rfl, fun _ ↦ hclean, by simp⟩
  | @aborted line rest hs hline hprocess =>
    -- A clean context has no method yet, so the assertion holds.
    have hmethod := hclean hs
    by_cases hknown : startsWithMethod line
    · obtain ⟨ok, request', hsome, -⟩ := processRequestLine_of_known hmethod hknown
      simp [hsome] at hprocess
    · simp [processRequestLine_of_unknown hmethod hknown] at hprocess
  | @rejected line rest request' hs hline hprocess =>
    have hmethod := hclean hs
    refine ⟨false, _, buf, rfl, by simp, fun _ ↦ ⟨line, rest, hs, hline, ?_⟩⟩
    by_cases hknown : startsWithMethod line
    · obtain ⟨ok, request'', hsome, hmethod'⟩ := processRequestLine_of_known hmethod hknown
      obtain ⟨-, rfl⟩ := Prod.mk.inj (Option.some.inj (hsome.symm.trans hprocess))
      exact iff_of_true hmethod' hknown
    · rw [processRequestLine_of_unknown hmethod hknown] at hprocess
      obtain ⟨-, rfl⟩ := Prod.mk.inj (Option.some.inj hprocess)
      exact iff_of_false (not_not.2 hmethod) hknown
  | accepted _ _ _ | header _ _ _ | blank _ _ _ =>
    exact ih _ _ hnext fun h ↦ by simp at h
  | postBody _ _ | noBody _ _ =>
    exact ⟨true, _, _, rfl, fun _ h ↦ by simp at h, by simp⟩

/-- **A call after a rejected line** rejects it again, or aborts the server if a method is
stored. -/
theorem parseRequest_of_rejected (h : Rejected context buf line rest) (m : Buffer) :
    (startsWithMethod line → parseRequest t context (buf ++ m) = some .assertFailed) ∧
    (¬ startsWithMethod line →
      parseRequest t context (buf ++ m) = some (.returned false context (buf ++ m))) := by
  obtain ⟨state, request⟩ := context
  obtain rfl : state = .kExpectRequestLine := h.state
  have hline := findCRLF_append h.first m
  rw [parseRequest_eq (by simp)]
  constructor
  · intro hknown
    have hprocess := processRequestLine_of_method (h.method.2 hknown) hknown
    simp only [parseTurn, hline, hprocess, ParseTurn.finish]
  · intro hunknown
    have hmethod : request.method = .kInvalid := not_not.1 (mt h.method.1 hunknown)
    simp only [parseTurn, hline, processRequestLine_of_unknown hmethod hunknown, ParseTurn.finish]

/-! ### A connection -/

namespace HttpConnection

variable {s s' : HttpConnection} {chunk : HttpChunk}

/-- What holds of a connection whenever bytes arrive. -/
structure Inv (s : HttpConnection) : Prop where
  notGotAll : s.context.state ≠ .kGotAll
  clean : s.answers.getLast? ≠ some .badRequest → s.context.Clean
  rejected : s.answers.getLast? = some .badRequest →
    ∃ line rest, Rejected s.context s.buf line rest

theorem inv_start : Inv {} := ⟨by simp, fun _ _ ↦ rfl, by simp⟩

/-- A call whose outcome is known is safe when that is not a failed assertion. -/
theorem safe_iff_of_parseRequest {r : Parsed} (hstate : s.context.state ≠ .kGotAll)
    (h : parseRequest chunk.receiveTime s.context (s.buf ++ chunk.bytes) = some r) :
    s.Safe chunk ↔ r ≠ .assertFailed := by
  constructor
  · rintro hsafe rfl
    exact hsafe.asserts _ h
  · intro hr
    refine ⟨hstate, ⟨_, r, h⟩, fun n hn ↦ hr ?_⟩
    have hmax := parseLoop_of_le hn (le_max_left n ((s.buf ++ chunk.bytes).length + 1))
    exact Option.some.inj ((parseLoop_of_le h (le_max_right n _)).symm.trans hmax)

/-- **One call** is safe exactly when no method has been left behind by a 400. -/
theorem safe_iff_not_methodRejected (h : s.Inv) : s.Safe chunk ↔ ¬ s.MethodRejected := by
  by_cases hlast : s.answers.getLast? = some .badRequest
  · obtain ⟨line, rest, hrej⟩ := h.rejected hlast
    have hiff : s.MethodRejected ↔ startsWithMethod line := by
      constructor
      · rintro ⟨-, line', rest', hfirst, hknown⟩
        obtain ⟨rfl, rfl⟩ := Prod.mk.inj (Option.some.inj (hrej.first.symm.trans hfirst))
        exact hknown
      · exact fun hknown ↦ ⟨hlast, line, rest, hrej.first, hknown⟩
    obtain ⟨hknown, hunknown⟩ := parseRequest_of_rejected (t := chunk.receiveTime) hrej chunk.bytes
    rw [hiff]
    by_cases hline : startsWithMethod line
    · simp [safe_iff_of_parseRequest h.notGotAll (hknown hline), hline]
    · simp [safe_iff_of_parseRequest h.notGotAll (hunknown hline), hline]
  · obtain ⟨ok, context', buf', hparse, -⟩ := parseRequest_of_clean chunk.receiveTime
      (s.buf ++ chunk.bytes) h.notGotAll (h.clean hlast)
    simp [safe_iff_of_parseRequest h.notGotAll hparse, MethodRejected, hlast]

/-- **One call** that comes back keeps the invariant. -/
theorem inv_onLibMessageCallback (h : s.Inv) (hs : s.onLibMessageCallback chunk = some s') :
    s'.Inv := by
  obtain ⟨r, hparse, hanswer⟩ := Option.bind_eq_some_iff.1 hs
  by_cases hlast : s.answers.getLast? = some .badRequest
  · obtain ⟨line, rest, hrej⟩ := h.rejected hlast
    obtain ⟨hknown, hunknown⟩ := parseRequest_of_rejected (t := chunk.receiveTime) hrej chunk.bytes
    by_cases hline : startsWithMethod line
    · rw [Option.some.inj (hparse.symm.trans (hknown hline))] at hanswer
      simp [answer] at hanswer
    · rw [Option.some.inj (hparse.symm.trans (hunknown hline))] at hanswer
      simp only [answer, hrej.state, reduceCtorEq, if_false, Option.some.injEq] at hanswer
      subst hanswer
      exact ⟨h.notGotAll, by simp, fun _ ↦
        ⟨line, _, hrej.state, findCRLF_append hrej.first chunk.bytes, hrej.method⟩⟩
  · obtain ⟨ok, context', buf', hreturn, hclean, hrejected⟩ := parseRequest_of_clean
      chunk.receiveTime (s.buf ++ chunk.bytes) h.notGotAll (h.clean hlast)
    rw [Option.some.inj (hparse.symm.trans hreturn)] at hanswer
    cases ok with
    | false =>
      obtain ⟨line, rest, hrej⟩ := hrejected rfl
      simp only [answer, hrej.state, reduceCtorEq, if_false, Option.some.injEq] at hanswer
      subst hanswer
      exact ⟨by simp [hrej.state], by simp, fun _ ↦ ⟨line, rest, hrej⟩⟩
    | true =>
      simp only [answer, if_true] at hanswer
      split_ifs at hanswer with hall
      · obtain rfl := Option.some.inj hanswer
        exact ⟨by simp [HttpContext.reset], fun _ _ ↦ rfl, by simp⟩
      · obtain rfl := Option.some.inj hanswer
        exact ⟨hall, fun _ ↦ hclean rfl, fun hbad ↦ absurd hbad hlast⟩

/-- **Malformed input cannot abort the server**, over every sequence of chunks, except by bytes that
arrive after a 400 to a line that begins with a method. -/
theorem safe_iff (chunks : List HttpChunk) :
    Guarded onLibMessageCallback Safe {} chunks ↔
      Guarded onLibMessageCallback (fun s _ ↦ ¬ s.MethodRejected) {} chunks := by
  exact guarded_iff (fun s chunk (h : s.Inv) _ ↦ safe_iff_not_methodRejected h)
    (fun s chunk s' h _ _ hs ↦ inv_onLibMessageCallback h hs) inv_start
    (guarded_of_forall (p := fun _ ↦ True) fun _ _ ↦ trivial)

/-- A version that is not known, and one more byte. -/
theorem not_safe_after_bad_version :
    ¬ Guarded onLibMessageCallback Safe {}
      [⟨ascii ['G', 'E', 'T', ' ', '/', ' ', 'H', 'T', 'T', 'P', '/', '2', '.', '0', '\r', '\n'],
          0⟩,
        ⟨ascii ['G'], 1⟩] := by
  intro h
  have hsecond := (guarded_cons.1 h).2 _ rfl
  exact (guarded_cons.1 hsecond).1.asserts 1 (by decide)

end HttpConnection

end QCLib
