import Animatronic.Service

/-!
# The replies of the service

The service answers with the types that only replies have, and never at a length that does not fit
in a reply: a line of text is cut off, and the banner of the self-test is short enough.
-/

namespace Animatronic

/-- Whether a type is that of a reply. -/
def MessageType.isReply : MessageType → Bool
  | pong | selfTestResult | value | setCoefficientsAck | setSetpointsAck | sleepAck | error => true
  | ping | selfTest | readValue | setCoefficients | setSetpoints | sleep => false

namespace Service

variable {identity : Identity} {s : Scheduler}

theorem length_appendWithin_le {capacity : Nat} {buffer : List UInt8} (more : List UInt8)
    (fits : buffer.length ≤ capacity) :
    ((appendWithin capacity buffer more).getD buffer).length ≤ capacity := by
  unfold appendWithin
  split
  · next room => rwa [Option.getD_some, List.length_append]
  · exact fits

theorem length_textLine_le (text : List Char) :
    (textLine text).length ≤ Frame.maxReplyPayload :=
  length_appendWithin_le _ (length_appendWithin_le _ (Nat.zero_le _))

/-- A text that leaves room for the end of the line is not cut off. -/
theorem textLine_of_length_le {text : List Char} (fits : text.length + 2 ≤ Frame.maxReplyPayload) :
    textLine text = asciiBytes (text ++ ['\r', '\n']) := by
  have bytes : (asciiBytes text).length = text.length := List.length_map _
  have room : appendWithin Frame.maxReplyPayload [] (asciiBytes text) = some (asciiBytes text) :=
    appendWithin_eq_some_iff.mpr ⟨by rw [List.length_nil]; omega, List.nil_append _⟩
  have ended : appendWithin Frame.maxReplyPayload (asciiBytes text) (asciiBytes ['\r', '\n']) =
      some (asciiBytes text ++ asciiBytes ['\r', '\n']) :=
    appendWithin_eq_some_iff.mpr ⟨by rw [bytes]; exact fits, rfl⟩
  unfold textLine
  dsimp only
  rw [room, Option.getD_some, ended, Option.getD_some]
  exact (List.map_append ..).symm

/-- A self-test that is queued is announced by the banner. -/
theorem eq_banner_of_selfTest {reply : List UInt8}
    (answered : (selfTest identity s).result = .ok reply) :
    reply = asciiBytes banner.toList := by
  unfold selfTest at answered
  split at answered
  · exact (Except.ok.inj answered).symm
  · cases answered

theorem length_of_selfTest {reply : List UInt8}
    (answered : (selfTest identity s).result = .ok reply) :
    reply.length ≤ Frame.maxReplyPayload := by
  rw [eq_banner_of_selfTest answered]
  decide

/-- The bare bytes that answer a diagnostic are no more than a reply may carry. -/
theorem length_diagnose_le (identity : Identity) (kind : DiagnosticKind) (s : Scheduler) :
    (diagnose identity kind s).result.length ≤ Frame.maxReplyPayload := by
  cases kind with
  | ping => exact (by decide : 1 ≤ Frame.maxReplyPayload)
  | readValue => exact length_textLine_le _
  | selfTest =>
    unfold diagnose
    dsimp only
    split
    · next answered => exact length_of_selfTest answered
    · exact length_textLine_le _

/-- What the service answers a request with is a reply, and short enough for one. -/
theorem reply_of_handle {code : UInt8} {payload : List UInt8} {response : Response}
    (answered : (handle identity code payload s).result = .ok response) :
    response.kind.isReply = true ∧ response.payload.length ≤ Frame.maxReplyPayload := by
  have empty : ∀ {kind : MessageType}, kind.isReply = true → Response.mk kind [] = response →
      response.kind.isReply = true ∧ response.payload.length ≤ Frame.maxReplyPayload := by
    rintro kind reply rfl
    exact ⟨reply, Nat.zero_le _⟩
  unfold handle at answered
  split at answered
  · cases answered
  · split at answered
    · exact empty rfl (Except.ok.inj answered)
    · have framed : (selfTest identity s).result.map (Response.mk .selfTestResult) =
          .ok response := answered
      cases tested : (selfTest identity s).result with
      | error fault =>
        rw [tested] at framed
        cases framed
      | ok reply =>
        rw [tested] at framed
        rw [← Except.ok.inj framed]
        exact ⟨rfl, length_of_selfTest tested⟩
    · rw [← Except.ok.inj answered]
      exact ⟨rfl, length_textLine_le _⟩
    · unfold setCoefficients at answered
      split at answered
      · cases answered
      · split at answered
        · cases answered
        · exact empty rfl (Except.ok.inj answered)
    · unfold setSetpoints at answered
      split at answered
      · cases answered
      · split at answered
        · cases answered
        · exact empty rfl (Except.ok.inj answered)
    · unfold sleep at answered
      split at answered
      · cases answered
      · exact empty rfl (Except.ok.inj answered)
    all_goals cases answered

end Service

end Animatronic
