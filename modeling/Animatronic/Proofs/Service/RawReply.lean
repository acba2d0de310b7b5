import Animatronic.Proofs.Decimal.Numeral
import Animatronic.Proofs.Receiver.Stream
import Animatronic.Proofs.Service.Fault
import Animatronic.Proofs.Service.Reply

/-!
# The bare bytes that answer a diagnostic

A diagnostic is answered with bytes that are not in a frame, and other boards read them as they
read everything else.  Here it is told what they can take them for.  No such byte is zero, and a
reply contains a byte that is no diagnostic, so that every reply has a part that looks like the
beginning of a frame.  In front of it there are pings at most, and only where a position begins
with digits (`Service.exists_opens`).
-/

namespace Animatronic

/-- The byte that pings a board. -/
def Board.ping (board : Board) : UInt8 := (Diagnostic.mk .ping board).byte

namespace Service

variable {reply : List UInt8} {text : List Char} {byte : UInt8}

/-- The boards that are pinged by the bytes at the beginning of a byte string. -/
def pings : List UInt8 → List Board
  | [] => []
  | byte :: rest =>
    match Diagnostic.decode byte with
    | some ⟨.ping, board⟩ => board :: pings rest
    | _ => []

theorem pings_cons_of_plain (plain : Diagnostic.decode byte = none) (rest : List UInt8) :
    pings (byte :: rest) = [] := by
  rw [pings, plain]

theorem pings_cons_ping (board : Board) (rest : List UInt8) :
    pings (board.ping :: rest) = board :: pings rest := by
  rw [pings, Board.ping, Diagnostic.decode_byte]

/-- A byte that is not zero, and no diagnostic but a ping. -/
def Mild (byte : UInt8) : Prop :=
  byte ≠ 0 ∧ (Diagnostic.decode byte = none ∨ ∃ board ∈ Board.all, board.ping = byte)

instance (byte : UInt8) : Decidable (Mild byte) :=
  inferInstanceAs (Decidable (_ ∧ (_ ∨ _)))

/-- A reply goes on with this byte and these others where its pings end, and what it goes on with
looks like the beginning of a frame. -/
structure Opens (reply : List UInt8) (first : UInt8) (more : List UInt8) : Prop where
  split : reply = (pings reply).map Board.ping ++ first :: more
  plain : Diagnostic.decode first = none
  nonzero : 0 ∉ more

theorem opens_of_plain {first : UInt8} {more : List UInt8} (plain : Diagnostic.decode first = none)
    (nonzero : 0 ∉ more) : Opens (first :: more) first more where
  split := by
    rw [pings_cons_of_plain plain]
    rfl
  plain := plain
  nonzero := nonzero

/-- A reply whose first byte is no diagnostic pings no board. -/
theorem exists_opens_of_head (plain : reply.head?.map Diagnostic.decode = some none)
    (nonzero : 0 ∉ reply) : ∃ first more, Opens reply first more ∧ pings reply = [] := by
  cases reply with
  | nil => cases plain
  | cons first more =>
    have head : Diagnostic.decode first = none := Option.some.inj plain
    exact ⟨first, more, opens_of_plain head fun mem => nonzero (List.mem_cons_of_mem _ mem),
      pings_cons_of_plain head more⟩

/-- Bytes that are mild can be cut where the pings end. -/
theorem exists_opens_of_mild (mild : ∀ byte ∈ reply, Mild byte)
    (plain : ∃ byte ∈ reply, Diagnostic.decode byte = none) :
    ∃ first more, Opens reply first more := by
  induction reply with
  | nil =>
    obtain ⟨_, mem, -⟩ := plain
    cases mem
  | cons byte rest ih =>
    have later : ∀ other ∈ rest, Mild other :=
      fun other mem => mild other (List.mem_cons_of_mem _ mem)
    rcases (mild byte (List.mem_cons_self ..)).2 with undiagnosed | ⟨board, -, rfl⟩
    · exact ⟨byte, rest, opens_of_plain undiagnosed fun mem => (later 0 mem).1 rfl⟩
    · have behind : ∃ byte ∈ rest, Diagnostic.decode byte = none := by
        obtain ⟨byte, mem, undiagnosed⟩ := plain
        rcases List.mem_cons.mp mem with rfl | mem
        · rw [Board.ping, Diagnostic.decode_byte] at undiagnosed
          cases undiagnosed
        · exact ⟨byte, mem, undiagnosed⟩
      obtain ⟨first, more, opens⟩ := ih later behind
      refine ⟨first, more, ?_, opens.plain, opens.nonzero⟩
      rw [pings_cons_ping, List.map_cons, List.cons_append, ← opens.split]

/-! ## Lines of text -/

/-- What does not fit is left out as a whole. -/
theorem textLine_cases (text : List Char) :
    textLine text = asciiBytes text ++ [13, 10] ∨ textLine text = asciiBytes text ∨
      textLine text = [13, 10] := by
  unfold textLine appendWithin
  dsimp only
  split
  · rw [Option.getD_some, List.nil_append]
    split
    · exact Or.inl rfl
    · exact Or.inr (Or.inl rfl)
  · exact Or.inr (Or.inr rfl)

theorem exists_opens_textLine (mild : ∀ c ∈ text, Mild (UInt8.ofNat c.toNat))
    (plain : ∃ c ∈ text, Diagnostic.decode (UInt8.ofNat c.toNat) = none) :
    ∃ first more, Opens (textLine text) first more := by
  have ending : ∀ byte ∈ ([13, 10] : List UInt8), Mild byte :=
    List.forall_mem_cons.mpr ⟨by decide, List.forall_mem_singleton.mpr (by decide)⟩
  have bytes : ∀ byte ∈ asciiBytes text, Mild byte := by
    intro byte mem
    obtain ⟨c, among, rfl⟩ := List.mem_map.mp mem
    exact mild c among
  have exists_plain : ∃ byte ∈ asciiBytes text, Diagnostic.decode byte = none := by
    obtain ⟨c, mem, undiagnosed⟩ := plain
    exact ⟨_, List.mem_map_of_mem mem, undiagnosed⟩
  rcases textLine_cases text with line | line | line
  · obtain ⟨byte, mem, undiagnosed⟩ := exists_plain
    rw [line]
    refine exists_opens_of_mild (fun other among => ?_)
      ⟨byte, List.mem_append_left _ mem, undiagnosed⟩
    exact (List.mem_append.mp among).elim (bytes other) (ending other)
  · rw [line]
    exact exists_opens_of_mild bytes exists_plain
  · rw [line]
    exact exists_opens_of_mild ending ⟨13, by decide⟩

/-! ## Positions as text -/

theorem mild_of_isDigit {c : Char} (digit : c.isDigit = true) : Mild (UInt8.ofNat c.toNat) := by
  have digits : ∀ n < 10, Mild (UInt8.ofNat (48 + n)) := by decide
  have bounds : 48 ≤ c.toNat ∧ c.toNat ≤ 57 := by
    simp only [Char.isDigit, ge_iff_le, Bool.and_eq_true, decide_eq_true_eq,
      UInt32.le_iff_toNat_le] at digit
    exact digit
  have cut : c.toNat = 48 + (c.toNat - 48) := by omega
  rw [cut]
  exact digits _ (by omega)

theorem mild_fixed {places num den : Nat} {c : Char} (mem : c ∈ Decimal.fixed places num den) :
    Mild (UInt8.ofNat c.toNat) := by
  rcases List.mem_append.mp mem with whole | rest
  · exact mild_of_isDigit (Nat.isDigit_of_mem_toDigits (by decide) (by decide) whole)
  · rcases List.mem_cons.mp rest with rfl | place
    · decide
    · exact mild_of_isDigit (Decimal.isDigit_of_mem_padded place)

/-- The text of a position pings boards at most. -/
theorem exists_opens_positionLine (s : Scheduler) :
    ∃ first more, Opens (positionLine s) first more := by
  unfold positionLine
  generalize s.position = x
  have sign : ∀ c ∈ (if x.isNegative then ['-'] else []), Mild (UInt8.ofNat c.toNat) := by
    cases x.isNegative with
    | true => exact List.forall_mem_singleton.mpr (by decide)
    | false => exact List.forall_mem_nil _
  cases nan : x.isNaN with
  | true =>
    rw [Binary32.toFixed, nan, if_pos rfl]
    have plain : (textLine "NaN".toList).head?.map Diagnostic.decode = some none := by decide
    obtain ⟨first, more, opens, -⟩ := exists_opens_of_head plain (by decide)
    exact ⟨first, more, opens⟩
  | false =>
    rw [Binary32.toFixed, nan, if_neg Bool.false_ne_true]
    cases x.isInfinite with
    | true =>
      have word : ∀ c ∈ "inf".toList, Mild (UInt8.ofNat c.toNat) := by
        intro c mem
        obtain rfl | rfl | rfl : c = 'i' ∨ c = 'n' ∨ c = 'f' := by simpa using mem
        all_goals decide
      refine exists_opens_textLine (fun c mem => ?_) ⟨'i', ?_, by decide⟩
      · rw [if_pos rfl] at mem
        exact (List.mem_append.mp mem).elim (sign c) (word c)
      · rw [if_pos rfl]
        exact List.mem_append_right _ (by decide)
    | false =>
      refine exists_opens_textLine (fun c mem => ?_) ⟨'.', ?_, by decide⟩
      · rw [if_neg Bool.false_ne_true] at mem
        exact (List.mem_append.mp mem).elim (sign c) mild_fixed
      · rw [if_neg Bool.false_ne_true]
        exact List.mem_append_right _ (List.mem_append_right _ (List.mem_cons_self ..))

/-! ## All replies -/

/-- A self-test is answered with the banner, or with the reason why there is none. -/
theorem result_selfTest (identity : Identity) (s : Scheduler) :
    (diagnose identity .selfTest s).result = asciiBytes banner.toList ∨
      ∃ fault, IsFull fault ∧
        (diagnose identity .selfTest s).result = textLine fault.message.toList := by
  unfold diagnose
  dsimp only
  split
  · next answered => exact Or.inl (eq_banner_of_selfTest answered)
  · next fault refused => exact Or.inr ⟨fault, isFull_of_selfTest refused, rfl⟩

/-- What is said about a self-test begins with a capital letter that is no diagnostic. -/
theorem exists_opens_selfTest (identity : Identity) (s : Scheduler) :
    ∃ first more, Opens (diagnose identity .selfTest s).result first more ∧
      pings (diagnose identity .selfTest s).result = [] := by
  rcases result_selfTest identity s with said | ⟨fault, rfl | rfl, said⟩
  · rw [said]
    exact exists_opens_of_head (by decide) (by decide)
  · rw [said]
    exact exists_opens_of_head (by decide) (by decide)
  · rw [said]
    exact exists_opens_of_head (by decide) (by decide)

/-- Whatever a board answers to a diagnostic, it pings other boards at most, and only with the
digits at the beginning of a position. -/
theorem exists_opens (identity : Identity) (kind : DiagnosticKind) (s : Scheduler) :
    ∃ first more, Opens (diagnose identity kind s).result first more ∧
      (kind ≠ .readValue → pings (diagnose identity kind s).result = []) := by
  cases kind with
  | ping =>
    have plain : [MessageType.pong.code].head?.map Diagnostic.decode = some none := by decide
    obtain ⟨first, more, opens, mute⟩ := exists_opens_of_head plain (by decide)
    exact ⟨first, more, opens, fun _ => mute⟩
  | readValue =>
    obtain ⟨first, more, opens⟩ := exists_opens_positionLine s
    exact ⟨first, more, opens, fun is => absurd rfl is⟩
  | selfTest =>
    obtain ⟨first, more, opens, mute⟩ := exists_opens_selfTest identity s
    exact ⟨first, more, opens, fun _ => mute⟩

end Service

end Animatronic
