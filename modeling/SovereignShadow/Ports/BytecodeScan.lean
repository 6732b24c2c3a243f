import SovereignShadow.Ports.Models
import SovereignShadow.Verified.Immediates

/-!
# The bytecode scanners

Port of `is_malicious_bytecode` of `state_mirror.rs` and `xray_scan_bytecode` of
`state_simulator.rs`.  Both look at every byte as if it were an opcode; neither skips the
immediates of `PUSH1` to `PUSH32`.

Each scanner rejects a code by patterns of bytes that occur in it in order, and which
patterns count depends on the length alone.  A pattern that occurs in the opcodes occurs in
every code with these opcodes; any other one occurs or not with the immediates.

## Main results

* `xrayLoop_rejects_iff`, `xray_rejects_iff` — the loop's state machine as patterns.
* `insensitive_iff` — for which programs the verdicts do not depend on the immediates.
-/

namespace SovereignShadow.Ports.BytecodeScan

open SovereignShadow.Ports.Models
open SovereignShadow.Verified.Immediates

/-! ## The scanners -/

/-- `is_malicious_bytecode`. -/
def isMaliciousBytecode (code : List UInt8) : Bool :=
  if code.length > 8000 then false
  else if code.contains 0xff then true
  else if code.contains 0xf4 ∧ code.length < 3000 then true
  else if code.length < 2000 then
    let hasCaller := code.contains 0x33
    let hasSload := code.contains 0x54
    let hasRevert := code.contains 0xfd || code.contains 0xfe
    hasCaller && hasSload && hasRevert
  else false

/-- The loop of `xray_scan_bytecode` over the rest of a code of length `len`. -/
def xrayLoop (len : ℕ) : Bool → Bool → List UInt8 → Except MEVError Unit
  | _, _, [] => .ok ()
  | hasCaller, hasSload, opcode :: rest =>
      if opcode = 0xff then .error (.honeypotDetected "XRAY: SELFDESTRUCT pattern found")
      else if opcode = 0xf4 ∧ len < 5000 then
        .error (.honeypotDetected "XRAY: Suspicious DELEGATECALL in small contract")
      else
        let hasCaller := hasCaller || opcode == 0x33
        let hasSload := hasSload || (hasCaller && opcode == 0x54)
        if (hasSload ∧ (opcode = 0xfd ∨ opcode = 0xfe)) ∧ len < 4000 then
          .error (.honeypotDetected "XRAY: Hidden Blacklist/Jail pattern detected")
        else if opcode = 0x32 ∧ len < 3000 then
          .error (.honeypotDetected "XRAY: Origin-dependent logic trap")
        else xrayLoop len hasCaller hasSload rest

/-- `xray_scan_bytecode`; a token without cached bytecode passes. -/
def xrayScanBytecode : Option (List UInt8) → Except MEVError Unit
  | none => .ok ()
  | some code => xrayLoop code.length false false code

/-- The scan rejects the token. -/
def Rejects (scan : Except MEVError Unit) : Prop := scan ≠ .ok ()

instance (scan : Except MEVError Unit) : Decidable (Rejects scan) :=
  match scan with
  | .ok () => isFalse fun h => h rfl
  | .error _ => isTrue nofun

@[simp] theorem rejects_error (e : MEVError) : Rejects (.error e) := nofun

@[simp] theorem not_rejects_ok : ¬ Rejects (.ok ()) := fun h => h rfl

/-! ## The loop as patterns -/

/-- What is left of the sequence CALLER, SLOAD, and REVERT or INVALID. -/
def jailRest (hasCaller hasSload : Bool) (last : UInt8) : List UInt8 :=
  if hasSload then [last] else if hasCaller then [0x54, last] else [0x33, 0x54, last]

/-- The sequence is completed in the rest of the code. -/
def Jails (hasCaller hasSload : Bool) (code : List UInt8) : Prop :=
  (jailRest hasCaller hasSload 0xfd).Sublist code ∨ (jailRest hasCaller hasSload 0xfe).Sublist code

theorem sublist_cons_of_ne {α : Type} {a b : α} {l l' : List α} (h : a ≠ b) :
    (a :: l).Sublist (b :: l') ↔ (a :: l).Sublist l' := by
  rw [List.cons_sublist_cons']
  exact or_iff_left fun hHere => h hHere.1

section StateMachine

variable {hasCaller hasSload hasCaller' hasSload' : Bool} {opcode : UInt8} {rest : List UInt8}

/-- A byte moves the state machine, or completes the sequence. -/
theorem jailRest_sublist_cons (hCaller : hasCaller' = (hasCaller || opcode == 0x33))
    (hSload : hasSload' = (hasSload || (hasCaller' && opcode == 0x54))) {last : UInt8}
    (hLast : last ≠ 0x54) :
    (jailRest hasCaller hasSload last).Sublist (opcode :: rest) ↔
      (hasSload' = true ∧ opcode = last) ∨
        (jailRest hasCaller' hasSload' last).Sublist rest := by
  cases hasSload with
  | true =>
      rw [Bool.true_or] at hSload
      subst hSload
      simp only [jailRest, if_true, List.singleton_sublist, List.mem_cons, true_and, eq_comm]
  | false =>
      cases hasCaller with
      | true =>
          rw [Bool.true_or] at hCaller
          subst hCaller
          by_cases hOpcode : opcode = 0x54
          · obtain rfl : hasSload' = true := by simpa [hOpcode] using hSload
            simp [jailRest, hOpcode, hLast.symm]
          · obtain rfl : hasSload' = false := by rw [hSload, beq_false_of_ne hOpcode]; rfl
            simp [jailRest, sublist_cons_of_ne (Ne.symm hOpcode)]
      | false =>
          by_cases hOpcode : opcode = 0x33
          · obtain rfl : hasCaller' = true := by simpa [hOpcode] using hCaller
            obtain rfl : hasSload' = false := by simpa [hOpcode] using hSload
            simp [jailRest, hOpcode]
          · obtain rfl : hasCaller' = false := by rw [hCaller, beq_false_of_ne hOpcode]; rfl
            obtain rfl : hasSload' = false := by simpa using hSload
            simp [jailRest, sublist_cons_of_ne (Ne.symm hOpcode)]

theorem jails_cons (hCaller : hasCaller' = (hasCaller || opcode == 0x33))
    (hSload : hasSload' = (hasSload || (hasCaller' && opcode == 0x54))) :
    Jails hasCaller hasSload (opcode :: rest) ↔
      (hasSload' = true ∧ (opcode = 0xfd ∨ opcode = 0xfe)) ∨ Jails hasCaller' hasSload' rest := by
  have hRevert : (0xfd : UInt8) ≠ 0x54 := by decide
  have hInvalid : (0xfe : UInt8) ≠ 0x54 := by decide
  unfold Jails
  rw [jailRest_sublist_cons hCaller hSload hRevert, jailRest_sublist_cons hCaller hSload hInvalid,
    or_or_or_comm, ← and_or_left]

end StateMachine

/-- A code of length `len` is rejected by the rest `code` of it. -/
def XrayRejects (len : ℕ) (hasCaller hasSload : Bool) (code : List UInt8) : Prop :=
  0xff ∈ code ∨ (len < 5000 ∧ 0xf4 ∈ code) ∨ (len < 4000 ∧ Jails hasCaller hasSload code) ∨
    (len < 3000 ∧ 0x32 ∈ code)

theorem xrayLoop_rejects_iff (len : ℕ) (hasCaller hasSload : Bool) (code : List UInt8) :
    Rejects (xrayLoop len hasCaller hasSload code) ↔
      XrayRejects len hasCaller hasSload code := by
  induction code generalizing hasCaller hasSload with
  | nil =>
      have hNoJail : ¬ Jails hasCaller hasSload [] := by
        cases hasCaller <;> cases hasSload <;> simp [Jails, jailRest]
      simp [xrayLoop, XrayRejects, hNoJail]
  | cons opcode rest ih =>
      unfold XrayRejects at ih ⊢
      rw [jails_cons rfl rfl, xrayLoop, List.mem_cons, List.mem_cons, List.mem_cons]
      split
      case isTrue hOpcode => simp [hOpcode]
      case isFalse hSelfdestruct =>
        split
        case isTrue hOpcode => simp [hOpcode]
        case isFalse hDelegatecall =>
          dsimp only
          split
          case isTrue hJail =>
            exact iff_of_true (rejects_error _) (.inr (.inr (.inl ⟨hJail.2, .inl hJail.1⟩)))
          case isFalse hNoJail =>
            split
            case isTrue hOpcode =>
              exact iff_of_true (rejects_error _)
                (.inr (.inr (.inr ⟨hOpcode.2, .inl hOpcode.1.symm⟩)))
            case isFalse hOrigin =>
              -- the byte is none of the pattern's last bytes
              rw [ih]
              refine or_congr (or_iff_right ?_).symm (or_congr ?_ (or_congr ?_ ?_))
              · exact fun h => hSelfdestruct h.symm
              · exact and_congr_right fun hLen =>
                  (or_iff_right fun h => hDelegatecall ⟨h.symm, hLen⟩).symm
              · exact and_congr_right fun hLen => (or_iff_right fun h => hNoJail ⟨h, hLen⟩).symm
              · exact and_congr_right fun hLen =>
                  (or_iff_right fun h => hOrigin ⟨h.symm, hLen⟩).symm

theorem xray_rejects_iff (code : List UInt8) :
    Rejects (xrayScanBytecode (some code)) ↔ XrayRejects code.length false false code :=
  xrayLoop_rejects_iff code.length false false code

/-- What a code of length `len`, unless it is longer than 8000 bytes, is malicious for. -/
def MaliciousBytes (len : ℕ) (code : List UInt8) : Prop :=
  0xff ∈ code ∨ (len < 3000 ∧ 0xf4 ∈ code) ∨
    (len < 2000 ∧ 0x33 ∈ code ∧ 0x54 ∈ code ∧ (0xfd ∈ code ∨ 0xfe ∈ code))

theorem isMaliciousBytecode_iff (code : List UInt8) :
    isMaliciousBytecode code = true ↔ code.length ≤ 8000 ∧ MaliciousBytes code.length code := by
  unfold isMaliciousBytecode MaliciousBytes
  simp only [List.contains_iff_mem]
  by_cases hLong : code.length > 8000
  · rw [if_pos hLong]
    exact iff_of_false (by decide) fun h => hLong.not_ge h.1
  rw [if_neg hLong, and_iff_right (not_lt.mp hLong)]
  by_cases hSelfdestruct : 0xff ∈ code
  · rw [if_pos hSelfdestruct]
    exact iff_of_true rfl (.inl hSelfdestruct)
  rw [if_neg hSelfdestruct, or_iff_right hSelfdestruct]
  by_cases hDelegatecall : 0xf4 ∈ code ∧ code.length < 3000
  · rw [if_pos hDelegatecall]
    exact iff_of_true rfl (.inl hDelegatecall.symm)
  rw [if_neg hDelegatecall, or_iff_right fun h => hDelegatecall h.symm]
  by_cases hShort : code.length < 2000
  · rw [if_pos hShort, and_iff_right hShort]
    simp [and_assoc]
  · rw [if_neg hShort]
    exact iff_of_false (by decide) fun h => hShort h.1

/-! ## Opcodes and data -/

/-- The immediates of an opcode, `PUSH1` to `PUSH32`. -/
def pushWidth (opcode : UInt8) : ℕ :=
  if 0x60 ≤ opcode ∧ opcode ≤ 0x7f then opcode.toNat - 0x5f else 0

/-- The opcodes of a code, without the immediates. -/
def opcodes (code : List UInt8) : List UInt8 := instructions (stream pushWidth code)

section Transfer

variable {part code : List UInt8}

/-- Every pattern of bytes other than zero that occurs in `part` occurs in `code`. -/
def Occurs (part code : List UInt8) : Prop :=
  ∀ pattern : List UInt8, 0x00 ∉ pattern → pattern.Sublist part → pattern.Sublist code

theorem Occurs.mem (h : Occurs part code) {opcode : UInt8} (hOpcode : opcode ≠ 0x00)
    (hMem : opcode ∈ part) : opcode ∈ code := by
  rw [← List.singleton_sublist] at hMem ⊢
  exact h [opcode] (fun hZero => hOpcode (List.mem_singleton.mp hZero).symm) hMem

theorem XrayRejects.transfer {len : ℕ} (hOccurs : Occurs part code)
    (h : XrayRejects len false false part) : XrayRejects len false false code := by
  rcases h with h | ⟨hLen, h⟩ | ⟨hLen, h⟩ | ⟨hLen, h⟩
  · exact .inl (hOccurs.mem (by decide) h)
  · exact .inr (.inl ⟨hLen, hOccurs.mem (by decide) h⟩)
  · refine .inr (.inr (.inl ⟨hLen, ?_⟩))
    exact h.imp (hOccurs _ (by decide)) (hOccurs _ (by decide))
  · exact .inr (.inr (.inr ⟨hLen, hOccurs.mem (by decide) h⟩))

theorem MaliciousBytes.transfer {len : ℕ} (hOccurs : Occurs part code)
    (h : MaliciousBytes len part) : MaliciousBytes len code := by
  rcases h with h | ⟨hLen, h⟩ | ⟨hLen, hCaller, hSload, hRevert⟩
  · exact .inl (hOccurs.mem (by decide) h)
  · exact .inr (.inl ⟨hLen, hOccurs.mem (by decide) h⟩)
  · have hLast := hRevert.imp (hOccurs.mem (by decide)) (hOccurs.mem (by decide))
    exact .inr (.inr ⟨hLen, hOccurs.mem (by decide) hCaller, hOccurs.mem (by decide) hSload, hLast⟩)

/-- What the opcodes contain, every code with them does. -/
theorem occurs_of_stream {code' : List UInt8}
    (hStream : stream pushWidth code' = stream pushWidth code) :
    Occurs (opcodes code) code' := by
  intro pattern _ hPattern
  rw [opcodes, ← hStream] at hPattern
  exact hPattern.trans (instructions_sublist code')

/-- Zero immediates add nothing to what the scanners look for. -/
theorem occurs_of_zeroed (code : List UInt8) :
    Occurs (fill 0x00 (stream pushWidth code)) (opcodes code) :=
  fun _ hZero hPattern => sublist_instructions hPattern hZero

end Transfer

/-! ## Verdicts on one instruction stream -/

/-- Both scanners judge the codes alike. -/
def SameVerdicts (code code' : List UInt8) : Prop :=
  (Rejects (xrayScanBytecode (some code)) ↔ Rejects (xrayScanBytecode (some code'))) ∧
    isMaliciousBytecode code = isMaliciousBytecode code'

/-- All codes with the instruction stream of this one are judged alike. -/
def Insensitive (code : List UInt8) : Prop :=
  ∀ code₁ code₂, stream pushWidth code₁ = stream pushWidth code →
    stream pushWidth code₂ = stream pushWidth code → SameVerdicts code₁ code₂

/-- A code of length `len` with these opcodes is rejected whatever its immediates: by
SELFDESTRUCT, or DELEGATECALL below 3000 bytes, or, below 2000 bytes, by CALLER, SLOAD, and
REVERT or INVALID, in this order or together with ORIGIN. -/
def RejectedByOpcodes (len : ℕ) (ops : List UInt8) : Prop :=
  0xff ∈ ops ∨ (len < 3000 ∧ 0xf4 ∈ ops) ∨
    (len < 2000 ∧ (0x33 ∈ ops ∧ 0x54 ∈ ops ∧ (0xfd ∈ ops ∨ 0xfe ∈ ops)) ∧
      (Jails false false ops ∨ 0x32 ∈ ops))

theorem RejectedByOpcodes.xray {len : ℕ} {ops : List UInt8} (h : RejectedByOpcodes len ops) :
    XrayRejects len false false ops := by
  rcases h with h | ⟨hLen, h⟩ | ⟨hLen, -, hJail | hOrigin⟩
  · exact .inl h
  · exact .inr (.inl ⟨by omega, h⟩)
  · exact .inr (.inr (.inl ⟨by omega, hJail⟩))
  · exact .inr (.inr (.inr ⟨by omega, hOrigin⟩))

theorem RejectedByOpcodes.malicious {len : ℕ} {ops : List UInt8}
    (h : RejectedByOpcodes len ops) : MaliciousBytes len ops := by
  rcases h with h | h | ⟨hLen, hBytes, -⟩
  · exact .inl h
  · exact .inr (.inl h)
  · exact .inr (.inr ⟨hLen, hBytes⟩)

/-- Beyond 5000 bytes the first scanner looks for SELFDESTRUCT only. -/
theorem rejectedByOpcodes_of_both {len : ℕ} {ops : List UInt8}
    (hXray : XrayRejects len false false ops)
    (hMalicious : len ≤ 8000 → MaliciousBytes len ops) : RejectedByOpcodes len ops := by
  by_cases hSelfdestruct : 0xff ∈ ops
  · exact .inl hSelfdestruct
  have hShort : len < 5000 := by
    rcases hXray with h | ⟨hLen, -⟩ | ⟨hLen, -⟩ | ⟨hLen, -⟩
    · exact absurd h hSelfdestruct
    · exact hLen
    · omega
    · omega
  rcases hMalicious (by omega) with h | h | ⟨hLen, hBytes⟩
  · exact .inl h
  · exact .inr (.inl h)
  rcases hXray with h | ⟨-, h⟩ | ⟨-, hJail⟩ | ⟨-, hOrigin⟩
  · exact .inl h
  · exact .inr (.inl ⟨by omega, h⟩)
  · exact .inr (.inr ⟨hLen, hBytes, .inl hJail⟩)
  · exact .inr (.inr ⟨hLen, hBytes, .inr hOrigin⟩)

/-- A rejected program is rejected with any immediates. -/
theorem verdicts_of_opcodes {code code' : List UInt8}
    (hStream : stream pushWidth code' = stream pushWidth code)
    (h : RejectedByOpcodes code.length (opcodes code)) :
    Rejects (xrayScanBytecode (some code')) ∧
      (isMaliciousBytecode code' = true ↔ code.length ≤ 8000) := by
  have hLength := length_eq hStream
  have hOccurs := occurs_of_stream hStream
  rw [xray_rejects_iff, isMaliciousBytecode_iff, hLength]
  exact ⟨h.xray.transfer hOccurs, and_iff_left (h.malicious.transfer hOccurs)⟩

theorem length_fill_stream (filler : UInt8) (code : List UInt8) :
    (fill filler (stream pushWidth code)).length = code.length :=
  length_eq (stream_fill filler code)

/-- A program with immediates that is judged alike with `0xff` and with `0x00` in them. -/
theorem rejected_of_insensitive {code : List UInt8} (hData : none ∈ stream pushWidth code)
    (h : Insensitive code) : RejectedByOpcodes code.length (opcodes code) := by
  have hSelfdestruct : 0xff ∈ fill 0xff (stream pushWidth code) := mem_fill hData
  obtain ⟨hXray, hMalicious⟩ := h _ _ (stream_fill 0xff code) (stream_fill 0x00 code)
  rw [xray_rejects_iff, xray_rejects_iff, length_fill_stream, length_fill_stream] at hXray
  have hMalicious := Bool.eq_iff_iff.mp hMalicious
  rw [isMaliciousBytecode_iff, isMaliciousBytecode_iff, length_fill_stream,
    length_fill_stream] at hMalicious
  have hZeroed := occurs_of_zeroed code
  apply rejectedByOpcodes_of_both ((hXray.mp (.inl hSelfdestruct)).transfer hZeroed)
  intro hShort
  exact (hMalicious.mp ⟨hShort, .inl hSelfdestruct⟩).2.transfer hZeroed

/-- **Data and instructions.**  All codes with one instruction stream get the same verdicts if
and only if the stream has no immediates or is rejected by its opcodes. -/
theorem insensitive_iff (code : List UInt8) :
    Insensitive code ↔
      none ∉ stream pushWidth code ∨ RejectedByOpcodes code.length (opcodes code) := by
  constructor
  · intro h
    by_cases hData : none ∈ stream pushWidth code
    · exact .inr (rejected_of_insensitive hData h)
    · exact .inl hData
  · rintro (hNone | hRejected) code₁ code₂ hStream₁ hStream₂
    · have hSame : code₁ = code₂ := calc
        code₁ = fill 0x00 (stream pushWidth code₁) := (fill_eq_self _ (hStream₁ ▸ hNone)).symm
        _ = fill 0x00 (stream pushWidth code₂) := by rw [hStream₁, hStream₂]
        _ = code₂ := fill_eq_self _ (hStream₂ ▸ hNone)
      rw [hSame]
      exact ⟨Iff.rfl, rfl⟩
    · obtain ⟨hXray₁, hMalicious₁⟩ := verdicts_of_opcodes hStream₁ hRejected
      obtain ⟨hXray₂, hMalicious₂⟩ := verdicts_of_opcodes hStream₂ hRejected
      exact ⟨iff_of_true hXray₁ hXray₂, Bool.eq_iff_iff.mpr (hMalicious₁.trans hMalicious₂.symm)⟩

/-- `PUSH1 0x00` passes both scanners, `PUSH1 0xff` neither. -/
theorem not_insensitive :
    stream pushWidth [0x60, 0x00] = stream pushWidth [0x60, 0xff] ∧
      ¬ Rejects (xrayScanBytecode (some [0x60, 0x00])) ∧
      Rejects (xrayScanBytecode (some [0x60, 0xff])) ∧
      isMaliciousBytecode [0x60, 0x00] = false ∧ isMaliciousBytecode [0x60, 0xff] = true ∧
      ¬ Insensitive [0x60, 0x00] := by
  have hStream : stream pushWidth [0x60, 0x00] = stream pushWidth [0x60, 0xff] := by decide
  have hPasses : ¬ Rejects (xrayScanBytecode (some [0x60, 0x00])) := by decide
  have hRejects : Rejects (xrayScanBytecode (some [0x60, 0xff])) := by decide
  refine ⟨hStream, hPasses, hRejects, by decide, by decide, ?_⟩
  intro hInsensitive
  exact hPasses ((hInsensitive _ _ rfl hStream.symm).1.mpr hRejects)

end SovereignShadow.Ports.BytecodeScan
