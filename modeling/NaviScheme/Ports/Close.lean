import NaviScheme.Lib.Moves
import NaviScheme.Reader.Port
import NaviScheme.Strings.Unicode

/-!
# Reading, writing and closing a port

The functions of `port.c` that read, write and close, with the calls by which they reach the
stream of the port: `getc`, `putc` and `fclose` of a file, or the string of a string port. The
stream is arbitrary (`stream` says what each call returns, from the calls before it), and an
error leaves the port as it is then, so that the program may try again.

`navi_close_input_port` forgets `close_in` and sets the flag only after the call. If `fclose`
fails, `stdio_close` raises an error in between: the port stays open, and is closed a second time
on the next attempt (`not_closesOnce`). As long as each `fclose` succeeds, a port calls it once
for each direction and does not reach its stream afterwards (`closesOnce_of_succeeds`).
-/

namespace NaviScheme

/-- What a port is used for. -/
inductive Direction
  | input
  | output
deriving DecidableEq, Repr

/-- `struct navi_port`: which of its functions are set, and what changes. -/
structure NaviPort where
  readU8 : Bool
  writeU8 : Bool
  readChar : Bool
  writeChar : Bool
  closeIn : Bool
  closeOut : Bool
  /-- `GOT_EOF` -/
  gotEof : Bool
  /-- `BUFFER_FULL` -/
  bufferFull : Bool
  /-- `INPUT_CLOSED` -/
  inputClosed : Bool
  /-- `OUTPUT_CLOSED` -/
  outputClosed : Bool
  buffer : ℤ
deriving DecidableEq, Repr

namespace NaviPort

/-- `navi_port_is_input_port` -/
def isInputPort (p : NaviPort) : Bool := p.readU8 || p.readChar

/-- `navi_port_is_output_port` -/
def isOutputPort (p : NaviPort) : Bool := p.writeU8 || p.writeChar

/-- The port is an input port, or an output port. -/
def usedFor (p : NaviPort) : Direction → Bool
  | .input => p.isInputPort
  | .output => p.isOutputPort

/-- The port has a function that closes the direction. -/
def closeFn (p : NaviPort) : Direction → Bool
  | .input => p.closeIn
  | .output => p.closeOut

/-- `close_in = NULL`, `close_out = NULL` -/
def dropCloseFn (p : NaviPort) : Direction → NaviPort
  | .input => { p with closeIn := false }
  | .output => { p with closeOut := false }

/-- `flags |= INPUT_CLOSED`, `flags |= OUTPUT_CLOSED` -/
def setClosed (p : NaviPort) : Direction → NaviPort
  | .input => { p with inputClosed := true }
  | .output => { p with outputClosed := true }

/-- The port refuses to be used in the direction. -/
def shut (p : NaviPort) : Direction → Bool
  | .input => p.inputClosed || !p.isInputPort
  | .output => p.outputClosed || !p.isOutputPort

variable (p : NaviPort) (d d' : Direction)

@[simp] theorem shut_setClosed : (p.setClosed d).shut d = true := by cases d <;> rfl

theorem shut_setClosed_of_shut (h : p.shut d' = true) : (p.setClosed d).shut d' = true := by
  cases d <;> cases d' <;> simp_all [shut, setClosed, isInputPort, isOutputPort]

@[simp] theorem closeFn_setClosed : (p.setClosed d).closeFn d' = p.closeFn d' := by
  cases d <;> cases d' <;> rfl

@[simp] theorem shut_dropCloseFn : (p.dropCloseFn d).shut d' = p.shut d' := by
  cases d <;> cases d' <;> rfl

@[simp] theorem closeFn_dropCloseFn :
    (p.dropCloseFn d).closeFn d' = (p.closeFn d' && decide (d ≠ d')) := by
  cases d <;> cases d' <;> simp [closeFn, dropCloseFn]

end NaviPort

/-- The calls that reach a stream. -/
inductive StreamCall
  | readU8
  | readChar
  | writeU8 (b : UInt8)
  | writeChar (ch : ℤ)
  | fclose (d : Direction)
deriving DecidableEq, Repr

/-- The call reads or writes. -/
def StreamCall.transfers : StreamCall → Direction → Bool
  | .readU8, .input | .readChar, .input | .writeU8 _, .output | .writeChar _, .output => true
  | _, _ => false

/-- The call closes the stream. -/
def StreamCall.isClose : StreamCall → Bool
  | .fclose _ => true
  | _ => false

/-- A port, and the calls that it has made so far, with what they returned. -/
structure PortRun where
  port : NaviPort
  calls : List (StreamCall × ℤ)
deriving DecidableEq, Repr

/-- How a function ends that does not return. -/
inductive PortStop
  /-- `navi_error`, `navi_utf8_error` -/
  | raise (msg : String)
  /-- An assertion fails. -/
  | abort
deriving DecidableEq, Repr

/-- A function of `port.c`. -/
abbrev PortM := EStateM PortStop PortRun

namespace PortM

/-! ### Checks -/

def raiseUnless (ok : NaviPort → Bool) (msg : String) : PortM Unit := do
  if ok (← get).port then pure () else throw (.raise msg)

/-- `check_input_port` -/
def checkInputPort : PortM Unit := raiseUnless NaviPort.isInputPort "not an input port"

/-- `check_output_port` -/
def checkOutputPort : PortM Unit := raiseUnless NaviPort.isOutputPort "not an output port"

/-- `check_can_read` -/
def checkCanRead : PortM Unit := do
  checkInputPort
  raiseUnless (!·.inputClosed) "attempted to read from closed port"

/-- `check_can_read_u8` -/
def checkCanReadU8 : PortM Unit := do
  checkCanRead
  raiseUnless (·.readU8) "port doesn't support binary input"

/-- `check_can_write` -/
def checkCanWrite : PortM Unit := do
  checkOutputPort
  raiseUnless (!·.outputClosed) "attempted to write to closed port"

/-- `check_can_write_u8` -/
def checkCanWriteU8 : PortM Unit := do
  checkCanWrite
  raiseUnless (·.writeU8) "port doesn't support binary output"

def setPort (f : NaviPort → NaviPort) : PortM Unit :=
  modify fun run => { run with port := f run.port }

section

variable (stream : List (StreamCall × ℤ) → StreamCall → ℤ) (U : Unicode)
  (u8GetUnchecked : List UInt8 → ℤ)

/-- A call of the stream. -/
def callStream (c : StreamCall) : PortM ℤ := do
  let calls := (← get).calls
  modify fun run => { run with calls := calls ++ [(c, stream calls c)] }
  return stream calls c

/-! ### Reading -/

/-- `navi_port_buffer_byte` -/
def naviPortBufferByte : PortM Unit := do
  let b ← callStream stream .readU8
  setPort fun p => { p with buffer := toInt32 b }

/-- `navi_port_peek_c_byte` -/
def naviPortPeekCByte : PortM ℤ := do
  checkCanReadU8
  let port := (← get).port
  if port.gotEof then
    return eofValue
  else if port.bufferFull then
    return port.buffer
  else
    naviPortBufferByte stream
    setPort fun p => { p with bufferFull := true }
    return (← get).port.buffer

/-- `navi_port_peek_byte` -/
def naviPortPeekByte : PortM Datum := do
  let b ← naviPortPeekCByte stream
  return if b = eofValue then .eof else naviMakeFixnum b

/-- `navi_port_read_c_byte` -/
def naviPortReadCByte : PortM ℤ := do
  checkCanReadU8
  let port := (← get).port
  if port.gotEof then
    return eofValue
  else if port.bufferFull then
    setPort fun p => { p with bufferFull := false }
    return port.buffer
  else
    naviPortBufferByte stream
    return (← get).port.buffer

/-- `navi_port_read_byte` -/
def naviPortReadByte : PortM Datum := do
  let b ← naviPortReadCByte stream
  if b = eofValue then
    setPort fun p => { p with gotEof := true }
    return .eof
  else
    return naviMakeFixnum b

/-- The bytes behind the first one of a character. -/
def readTrail : ℕ → PortM (List UInt8)
  | 0 => return []
  | n + 1 => do
    let byte ← callStream stream .readU8
    if byte = eofValue then
      throw (.raise "unexpected end of file")
    else
      let bytes ← readTrail n
      return toByte byte :: bytes

/-- `navi_port_buffer_char`; `u8GetUnchecked` is the value that `u8_get_unchecked` finds at the
beginning of a buffer. -/
def naviPortBufferChar : PortM Unit := do
  if (← get).port.readChar then
    let ch ← callStream stream .readChar
    setPort fun p =>
      { p with buffer := toInt32 ch, gotEof := p.gotEof || toInt32 ch == eofValue }
  else
    let byte ← callStream stream .readU8
    if byte = eofValue then
      setPort fun p => { p with buffer := eofValue, gotEof := true }
    else if utf8CharSize (toByte byte) ≤ 0 then
      throw (.raise "invalid lead byte")
    else
      let bytes ← readTrail stream ((utf8CharSize (toByte byte)).toNat - 1)
      let ch := toInt32 (u8GetUnchecked (toByte byte :: bytes))
      setPort fun p => { p with buffer := ch }
      if ch < 0 then throw (.raise "invalid byte sequence") else pure ()

/-- `navi_port_read_char` -/
def naviPortReadChar : PortM Datum := do
  checkCanRead
  let port := (← get).port
  if port.gotEof then
    return .eof
  else if port.bufferFull then
    setPort fun p => { p with bufferFull := false }
    return .char port.buffer
  else
    naviPortBufferChar stream u8GetUnchecked
    let port := (← get).port
    return if port.gotEof then .eof else .char port.buffer

/-- `navi_port_peek_char` -/
def naviPortPeekChar : PortM Datum := do
  checkCanRead
  let port := (← get).port
  if port.gotEof then
    return .eof
  else if port.bufferFull then
    return .char port.buffer
  else
    naviPortBufferChar stream u8GetUnchecked
    setPort fun p => { p with bufferFull := true }
    return .char (← get).port.buffer

/-! ### Writing -/

/-- `navi_port_write_byte` -/
def naviPortWriteByte (b : UInt8) : PortM Unit := do
  checkCanWriteU8
  let _ ← callStream stream (.writeU8 b)

/-- `write_u8`, of one byte after the other. -/
def writeEach : List UInt8 → PortM Unit
  | [] => pure ()
  | b :: bs => do
    let _ ← callStream stream (.writeU8 b)
    writeEach bs

/-- `navi_port_write_char` -/
def naviPortWriteChar (ch : ℤ) : PortM Unit := do
  checkCanWrite
  if (← get).port.writeChar then
    let _ ← callStream stream (.writeChar ch)
  else
    match U.u8Append 0 5 (UInt32.ofInt ch) with
    | none => throw .abort
    | some buf =>
      let size := (U.u8Length (UInt32.ofInt ch)).toNat
      writeEach stream ((List.range size).map fun i => buf.getD i 0)

/-- The loop of `navi_port_write_cstr`, which takes each byte for a `char`. -/
def writeChars : List UInt8 → PortM Unit
  | [] => pure ()
  | b :: bs => do
    naviPortWriteChar stream U (toChar b.toNat)
    writeChars bs

/-- The other loop of `navi_port_write_cstr`. -/
def writeBytes : List UInt8 → PortM Unit
  | [] => pure ()
  | b :: bs => do
    naviPortWriteByte stream b
    writeBytes bs

/-- `navi_port_write_cstr` -/
def naviPortWriteCstr (str : List UInt8) : PortM Unit := do
  if (← get).port.writeU8 then
    writeBytes stream (str.takeWhile (· ≠ 0))
  else
    writeChars stream U (str.takeWhile (· ≠ 0))

/-! ### Closing -/

/-- `stdio_close` -/
def stdioClose (d : Direction) : PortM Unit := do
  let r ← callStream stream (.fclose d)
  if r ≠ 0 then throw (.raise "failed to close port") else pure ()

/-- What `navi_close_input_port` and `navi_close_output_port` do, each in its direction. -/
def naviClosePort (d : Direction) : PortM Unit := do
  if (← get).port.closeFn d then
    stdioClose stream d
    setPort fun p => p.dropCloseFn d
  setPort fun p => p.setClosed d

/-- `navi_close_input_port` -/
def naviCloseInputPort : PortM Unit := naviClosePort stream .input

/-- `navi_close_output_port` -/
def naviCloseOutputPort : PortM Unit := naviClosePort stream .output

/-- What `close-port` does in a direction. -/
def closeIfUsed (d : Direction) : PortM Unit := do
  if (← get).port.usedFor d then naviClosePort stream d else pure ()

/-- `close-port` -/
def scmClosePort : PortM Unit := do
  closeIfUsed stream .input
  closeIfUsed stream .output

/-- `close-input-port` -/
def scmCloseInputPort : PortM Unit := do
  checkInputPort
  naviCloseInputPort stream

/-- `close-output-port` -/
def scmCloseOutputPort : PortM Unit := do
  checkOutputPort
  naviCloseOutputPort stream

end

end PortM

/-! ### Runs -/

/-- The procedures that are called with a port. `read`, `write` and `display` call the same
functions as these. -/
inductive PortAction
  | readU8
  | peekU8
  | readChar
  | peekChar
  | writeU8 (b : UInt8)
  | writeChar (ch : ℤ)
  | writeString (data : List UInt8)
  | newline
  | closePort
  | closeInputPort
  | closeOutputPort
deriving DecidableEq, Repr

/-- The procedure is to close the direction. -/
def PortAction.closes : PortAction → Direction → Bool
  | .closePort, _ | .closeInputPort, .input | .closeOutputPort, .output => true
  | _, _ => false

/-- How often `fclose` has been called for a direction. -/
def PortRun.closeCount (run : PortRun) (d : Direction) : ℕ :=
  run.calls.countP fun c => c.1 = .fclose d

/-- Each `fclose` that has been called has succeeded. -/
def PortRun.Succeeds (run : PortRun) : Prop := ∀ c ∈ run.calls, c.1.isClose = true → c.2 = 0

instance (run : PortRun) : Decidable run.Succeeds :=
  inferInstanceAs (Decidable (∀ c ∈ run.calls, c.1.isClose = true → c.2 = 0))

section

variable (stream : List (StreamCall × ℤ) → StreamCall → ℤ) (U : Unicode)
  (u8GetUnchecked : List UInt8 → ℤ)

/-- One call. `get_input_port` and `get_output_port` check the port before the functions do so;
`write-u8` writes its argument as a character. -/
def PortM.runOp : PortAction → PortM Unit
  | .readU8 => do checkInputPort; let _ ← naviPortReadByte stream
  | .peekU8 => do checkInputPort; let _ ← naviPortPeekByte stream
  | .readChar => do checkInputPort; let _ ← naviPortReadChar stream u8GetUnchecked
  | .peekChar => do checkInputPort; let _ ← naviPortPeekChar stream u8GetUnchecked
  | .writeU8 b => do checkOutputPort; naviPortWriteChar stream U b.toNat
  | .writeChar ch => do checkOutputPort; naviPortWriteChar stream U ch
  | .writeString data => do checkOutputPort; naviPortWriteCstr stream U data
  | .newline => do checkOutputPort; naviPortWriteChar stream U 10
  | .closePort => scmClosePort stream
  | .closeInputPort => scmCloseInputPort stream
  | .closeOutputPort => scmCloseOutputPort stream

/-- The state after a number of calls, some of which may have failed. -/
def runPortActions (ops : List PortAction) (run : PortRun) : PortRun :=
  ops.foldl (fun run op => (PortM.runOp stream U u8GetUnchecked op run).state) run

/-- **A port is closed once**: there is one call of `fclose` at most for each direction, and
behind a call of a procedure that is to close a direction none that reads or writes in it. -/
def ClosesOnce (port : NaviPort) (ops : List PortAction) : Prop :=
  (∀ d, (runPortActions stream U u8GetUnchecked ops ⟨port, []⟩).closeCount d ≤ 1) ∧
    ∀ d before op after, ops = before ++ op :: after → op.closes d = true →
      ∀ c ∈ (runPortActions stream U u8GetUnchecked ops ⟨port, []⟩).calls.drop
          (runPortActions stream U u8GetUnchecked (before ++ [op]) ⟨port, []⟩).calls.length,
        c.1.transfers d = false

end

/-! ### What a function can do -/

/-- The calls of `fclose` that a port has made and may still make. -/
def PortRun.budget (run : PortRun) (d : Direction) : ℕ :=
  run.closeCount d + if run.port.closeFn d then 1 else 0

/-- **What a function of `port.c` can do** to a port: it makes further calls, none that reads or
writes in a direction that is shut; what is shut stays so; and if all calls of `fclose` have
succeeded, there are no more of them than there were to be. -/
structure PortRun.Follows (run run' : PortRun) : Prop where
  calls : ∃ new, run'.calls = run.calls ++ new ∧
    ∀ d, run.port.shut d = true → ∀ c ∈ new, c.1.transfers d = false
  shut : ∀ d, run.port.shut d = true → run'.port.shut d = true
  budget : run'.Succeeds → ∀ d, run'.budget d ≤ run.budget d

namespace PortRun

theorem Succeeds.of_append {run run' : PortRun} {new : List (StreamCall × ℤ)}
    (h : run'.Succeeds) (hcalls : run'.calls = run.calls ++ new) : run.Succeeds :=
  fun c hc => h c (hcalls ▸ List.mem_append_left new hc)

theorem Follows.succeeds {run run' : PortRun} (h : run.Follows run') (hs : run'.Succeeds) :
    run.Succeeds := by
  obtain ⟨new, hcalls, -⟩ := h.calls
  exact hs.of_append hcalls

instance : IsPreorder PortRun Follows where
  refl run := ⟨⟨[], by simp, fun _ _ => nofun⟩, fun _ h => h, fun _ _ => le_rfl⟩
  trans run₁ run₂ run₃ h h' := by
    refine ⟨?_, fun d hd => h'.shut d (h.shut d hd), fun hs d => ?_⟩
    · obtain ⟨new, hcalls, hnew⟩ := h.calls
      obtain ⟨new', hcalls', hnew'⟩ := h'.calls
      refine ⟨new ++ new', by rw [hcalls', hcalls, List.append_assoc], fun d hd c hc => ?_⟩
      rcases List.mem_append.mp hc with hc | hc
      · exact hnew d hd c hc
      · exact hnew' d (h.shut d hd) c hc
    · exact (h'.budget hs d).trans (h.budget (h'.succeeds hs) d)

/-- The port can be used in the direction. -/
def Open (d : Direction) (run : PortRun) : Prop := run.port.shut d = false

end PortRun

open EStateM PortRun

/-- A function that goes its way whatever the state. -/
abbrev PortM.Fine {α : Type} (m : PortM α) : Prop :=
  Moves Follows (fun _ => True) m fun _ _ => True

namespace PortM

variable {α : Type} {d : Direction} {stream : List (StreamCall × ℤ) → StreamCall → ℤ}
  {U : Unicode} {u8GetUnchecked : List UInt8 → ℤ}

/-! ### Steps -/

theorem moves_raiseUnless {P : PortRun → Prop} (ok : NaviPort → Bool) (msg : String) :
    Moves Follows P (raiseUnless ok msg) fun _ run => P run ∧ ok run.port = true := by
  refine Moves.bind Moves.get_eq fun run => Moves.ite_of (fun hok => Moves.ret _ ?_)
    fun _ => Moves.throw _
  rintro run' ⟨rfl, hP⟩
  exact ⟨hP, hok⟩

/-- Writing a field that does not tell whether the port is shut or what closes it. -/
theorem moves_setPort {f : NaviPort → NaviPort}
    (hshut : ∀ p d, (f p).shut d = p.shut d := by intro _ d; cases d <;> rfl)
    (hclose : ∀ p d, (f p).closeFn d = p.closeFn d := by intro _ d; cases d <;> rfl) :
    Moves Follows (Open d) (setPort f) fun _ => Open d := by
  refine Moves.modify fun run hrun => ⟨⟨⟨[], by simp, fun _ _ => nofun⟩, fun d hd => ?_,
    fun _ d => ?_⟩, ?_⟩
  · exact (hshut run.port d).trans hd
  · rw [budget, budget, hclose]
    exact le_rfl
  · exact (hshut run.port _).trans hrun

/-- A call that reads or writes, of a port that is not shut in its direction. -/
theorem moves_callStream {c : StreamCall} (hc : c.transfers d = true) :
    Moves Follows (Open d) (callStream stream c) fun _ => Open d := by
  intro run hrun
  have hclose : ∀ d', c ≠ .fclose d' := by
    rintro d' rfl
    cases hc
  have hother : ∀ d', run.port.shut d' = true → c.transfers d' = false := by
    intro d' hd'
    have hne : d' ≠ d := by
      rintro rfl
      rw [Open, hd'] at hrun
      cases hrun
    revert hc hne
    cases c <;> cases d <;> cases d' <;> simp [StreamCall.transfers]
  refine ⟨⟨⟨[(c, stream run.calls c)], rfl, fun d' hd' c' hc' => ?_⟩, fun _ h => h,
    fun _ d' => ?_⟩, ?_⟩
  · rw [List.mem_singleton.mp hc']
    exact hother d' hd'
  · change (run.calls ++ [(c, _)]).countP _ + _ ≤ run.calls.countP _ + _
    rw [List.countP_append, List.countP_singleton, if_neg (by simpa using hclose d')]
    exact le_rfl
  · rintro _ _ h
    cases h
    exact hrun

theorem moves_checkCanRead :
    Moves Follows (fun _ => True) checkCanRead fun _ => Open .input := by
  refine Moves.bind (moves_raiseUnless _ _) fun _ =>
    (moves_raiseUnless _ _).mono (fun _ h => h) ?_
  rintro _ run ⟨⟨-, hin⟩, hclosed⟩
  simp_all [Open, NaviPort.shut]

theorem moves_checkCanReadU8 :
    Moves Follows (fun _ => True) checkCanReadU8 fun _ => Open .input :=
  Moves.bind moves_checkCanRead fun _ =>
    (moves_raiseUnless _ _).mono (fun _ h => h) fun _ _ h => h.1

theorem moves_checkCanWrite :
    Moves Follows (fun _ => True) checkCanWrite fun _ => Open .output := by
  refine Moves.bind (moves_raiseUnless _ _) fun _ =>
    (moves_raiseUnless _ _).mono (fun _ h => h) ?_
  rintro _ run ⟨⟨-, hout⟩, hclosed⟩
  simp_all [Open, NaviPort.shut]

/-! ### Reading and writing -/

theorem moves_naviPortBufferByte :
    Moves Follows (Open .input) (naviPortBufferByte stream) fun _ => Open .input :=
  Moves.bind (moves_callStream rfl) fun _ => moves_setPort

theorem moves_naviPortPeekCByte :
    Moves Follows (fun _ => True) (naviPortPeekCByte stream) fun _ => Open .input := by
  refine Moves.bind moves_checkCanReadU8 fun _ => Moves.bind Moves.get fun run =>
    Moves.ite (Moves.ret _ fun _ h => h) (Moves.ite (Moves.ret _ fun _ h => h) ?_)
  exact Moves.bind moves_naviPortBufferByte fun _ => Moves.bind moves_setPort fun _ =>
    Moves.bind Moves.get fun _ => Moves.ret _ fun _ h => h

theorem moves_naviPortReadCByte :
    Moves Follows (fun _ => True) (naviPortReadCByte stream) fun _ => Open .input := by
  refine Moves.bind moves_checkCanReadU8 fun _ => Moves.bind Moves.get fun run =>
    Moves.ite (Moves.ret _ fun _ h => h) (Moves.ite ?_ ?_)
  · exact Moves.bind moves_setPort fun _ => Moves.ret _ fun _ h => h
  · exact Moves.bind moves_naviPortBufferByte fun _ => Moves.bind Moves.get fun _ =>
      Moves.ret _ fun _ h => h

theorem fine_naviPortPeekByte : Fine (naviPortPeekByte stream) :=
  Moves.bind moves_naviPortPeekCByte fun _ => Moves.ret _ fun _ _ => trivial

theorem fine_naviPortReadByte : Fine (naviPortReadByte stream) := by
  refine Moves.bind moves_naviPortReadCByte fun b => Moves.ite ?_ (Moves.ret _ fun _ _ => trivial)
  exact Moves.bind moves_setPort fun _ => Moves.ret _ fun _ _ => trivial

theorem moves_readTrail (n : ℕ) :
    Moves Follows (Open .input) (readTrail stream n) fun _ => Open .input := by
  induction n with
  | zero => exact Moves.ret _ fun _ h => h
  | succ n ih =>
    exact Moves.bind (moves_callStream rfl) fun byte => Moves.ite (Moves.throw _)
      (Moves.bind ih fun _ => Moves.ret _ fun _ h => h)

theorem moves_naviPortBufferChar :
    Moves Follows (Open .input) (naviPortBufferChar stream u8GetUnchecked)
      fun _ => Open .input := by
  refine Moves.bind Moves.get fun run => Moves.ite ?_ ?_
  · exact Moves.bind (moves_callStream rfl) fun _ => moves_setPort
  · refine Moves.bind (moves_callStream rfl) fun byte => Moves.ite moves_setPort
      (Moves.ite (Moves.throw _) (Moves.bind (moves_readTrail _) fun bytes => ?_))
    exact Moves.bind moves_setPort fun _ => Moves.ite (Moves.throw _) (Moves.ret _ fun _ h => h)

theorem fine_naviPortReadChar : Fine (naviPortReadChar stream u8GetUnchecked) := by
  refine Moves.bind moves_checkCanRead fun _ => Moves.bind Moves.get fun run =>
    Moves.ite (Moves.ret _ fun _ _ => trivial) (Moves.ite ?_ ?_)
  · exact Moves.bind moves_setPort fun _ => Moves.ret _ fun _ _ => trivial
  · exact Moves.bind moves_naviPortBufferChar fun _ => Moves.bind Moves.get fun _ =>
      Moves.ret _ fun _ _ => trivial

theorem fine_naviPortPeekChar : Fine (naviPortPeekChar stream u8GetUnchecked) := by
  refine Moves.bind moves_checkCanRead fun _ => Moves.bind Moves.get fun run =>
    Moves.ite (Moves.ret _ fun _ _ => trivial) (Moves.ite (Moves.ret _ fun _ _ => trivial) ?_)
  exact Moves.bind moves_naviPortBufferChar fun _ => Moves.bind moves_setPort fun _ =>
    Moves.bind Moves.get fun _ => Moves.ret _ fun _ _ => trivial

theorem fine_naviPortWriteByte (b : UInt8) : Fine (naviPortWriteByte stream b) := by
  have hcheck : Moves Follows (fun _ => True) checkCanWriteU8 fun _ => Open .output :=
    Moves.bind moves_checkCanWrite fun _ =>
      (moves_raiseUnless _ _).mono (fun _ h => h) fun _ _ h => h.1
  exact Moves.bind hcheck fun _ => Moves.bind (moves_callStream rfl) fun _ =>
    Moves.ret _ fun _ _ => trivial

theorem moves_writeEach (bs : List UInt8) :
    Moves Follows (Open .output) (writeEach stream bs) fun _ => Open .output := by
  induction bs with
  | nil => exact Moves.ret _ fun _ h => h
  | cons b bs ih => exact Moves.bind (moves_callStream rfl) fun _ => ih

theorem fine_naviPortWriteChar (ch : ℤ) : Fine (naviPortWriteChar stream U ch) := by
  refine Moves.bind moves_checkCanWrite fun _ => Moves.bind Moves.get fun run => Moves.ite ?_ ?_
  · exact Moves.bind (moves_callStream rfl) fun _ => Moves.ret _ fun _ _ => trivial
  · cases U.u8Append 0 5 (UInt32.ofInt ch) with
    | none => exact Moves.throw _
    | some buf => exact (moves_writeEach _).mono (fun _ h => h) fun _ _ _ => trivial

theorem fine_naviPortWriteCstr (str : List UInt8) : Fine (naviPortWriteCstr stream U str) := by
  have hbytes : ∀ bs, Fine (writeBytes stream bs) := by
    intro bs
    induction bs with
    | nil => exact Moves.ret _ fun _ h => h
    | cons b bs ih => exact Moves.bind (fine_naviPortWriteByte b) fun _ => ih
  have hchars : ∀ bs, Fine (writeChars stream U bs) := by
    intro bs
    induction bs with
    | nil => exact Moves.ret _ fun _ h => h
    | cons b bs ih => exact Moves.bind (fine_naviPortWriteChar _) fun _ => ih
  exact Moves.bind Moves.get fun _ => Moves.ite (hbytes _) (hchars _)

/-! ### Closing -/

/-- What `navi_close_input_port` and `navi_close_output_port` leave. -/
theorem naviClosePort_eq (run : PortRun) : naviClosePort stream d run =
    if run.port.closeFn d then
      if stream run.calls (.fclose d) ≠ 0 then
        .error (.raise "failed to close port")
          { run with calls := run.calls ++ [(.fclose d, stream run.calls (.fclose d))] }
      else
        .ok () ⟨(run.port.dropCloseFn d).setClosed d,
          run.calls ++ [(.fclose d, stream run.calls (.fclose d))]⟩
    else
      .ok () { run with port := run.port.setClosed d } := by
  cases hfn : run.port.closeFn d with
  | false => simp [naviClosePort, setPort, bind_apply, get_apply, modify_apply, hfn]
  | true =>
    by_cases hr : stream run.calls (.fclose d) = 0
    · simp [naviClosePort, stdioClose, callStream, setPort, bind_apply, get_apply,
        modify_apply, hfn, hr]
    · simp [naviClosePort, stdioClose, callStream, bind_apply, get_apply, throw_apply,
        modify_apply, hfn, hr]

/-- The state behind a call of `fclose`. -/
theorem succeeds_append {calls : List (StreamCall × ℤ)} (port : NaviPort) {port' : NaviPort} {r : ℤ} :
    Succeeds ⟨port', calls ++ [(.fclose d, r)]⟩ ↔ Succeeds ⟨port, calls⟩ ∧ r = 0 := by
  simp [Succeeds, StreamCall.isClose, or_imp, forall_and]

theorem fine_naviClosePort (d : Direction) : Fine (naviClosePort stream d) := by
  refine fun run _ => ⟨?_, fun _ _ _ => trivial⟩
  rw [naviClosePort_eq]
  cases hfn : run.port.closeFn d with
  | false =>
    refine ⟨⟨[], by simp [Result.state], fun _ _ => nofun⟩, fun d' h => ?_, fun _ d' => ?_⟩
    · exact run.port.shut_setClosed_of_shut d d' h
    · simp [Result.state, budget, closeCount]
  | true =>
    have hnew : ∀ (r : ℤ) d', run.port.shut d' = true →
        ∀ c ∈ [(StreamCall.fclose d, r)], c.1.transfers d' = false := by
      intro r d' _ c hc
      rw [List.mem_singleton.mp hc]
      cases d' <;> rfl
    by_cases hr : stream run.calls (.fclose d) = 0
    · rw [if_pos rfl, if_neg (not_not.mpr hr)]
      refine ⟨⟨_, rfl, hnew _⟩, fun d' h => ?_, fun _ d' => ?_⟩
      · exact (run.port.dropCloseFn d).shut_setClosed_of_shut d d' (by simpa using h)
      · -- the function that has been called is forgotten
        simp only [Result.state, budget, closeCount, List.countP_append, List.countP_singleton,
          NaviPort.closeFn_setClosed, NaviPort.closeFn_dropCloseFn]
        rcases eq_or_ne d d' with rfl | hne
        · simp [hfn]
        · simp [hne]
    · rw [if_pos rfl, if_pos hr]
      refine ⟨⟨_, rfl, hnew _⟩, fun _ h => h, fun hs => ?_⟩
      exact absurd ((succeeds_append run.port).mp hs).2 hr

/-- Unless `fclose` fails, the direction is shut. -/
theorem naviClosePort_of_succeeds (run : PortRun)
    (hs : (naviClosePort stream d run).state.Succeeds) :
    ∃ run', naviClosePort stream d run = .ok () run' ∧ run'.port.shut d = true := by
  rw [naviClosePort_eq] at hs ⊢
  cases hfn : run.port.closeFn d with
  | false => exact ⟨_, rfl, NaviPort.shut_setClosed _ _⟩
  | true =>
    rw [hfn, if_pos rfl] at hs
    rw [if_pos rfl]
    by_cases hr : stream run.calls (.fclose d) = 0
    · rw [if_neg (not_not.mpr hr)]
      exact ⟨_, rfl, NaviPort.shut_setClosed _ _⟩
    · rw [if_pos hr] at hs
      exact absurd ((succeeds_append run.port).mp hs).2 hr

theorem closeIfUsed_of_succeeds (run : PortRun)
    (hs : (closeIfUsed stream d run).state.Succeeds) :
    ∃ run', closeIfUsed stream d run = .ok () run' ∧ run'.port.shut d = true := by
  rw [closeIfUsed, bind_apply, get_apply] at hs ⊢
  dsimp only at hs ⊢
  cases hused : run.port.usedFor d with
  | false =>
    refine ⟨run, rfl, ?_⟩
    cases d <;> simp_all [NaviPort.shut, NaviPort.usedFor]
  | true =>
    rw [hused, if_pos rfl] at hs
    exact naviClosePort_of_succeeds run hs

theorem fine_closeIfUsed (d : Direction) : Fine (closeIfUsed stream d) :=
  Moves.bind Moves.get fun _ => Moves.ite (fine_naviClosePort d) (Moves.ret _ fun _ h => h)

theorem fine_runOp (op : PortAction) : Fine (runOp stream U u8GetUnchecked op) := by
  have hcheck : ∀ (ok : NaviPort → Bool) msg, Fine (raiseUnless ok msg) := fun ok msg =>
    (moves_raiseUnless ok msg).mono (fun _ h => h) fun _ _ _ => trivial
  have hdrop : ∀ {β : Type} {m : PortM β}, Fine m → Fine (do let _ ← m) :=
    fun hm => Moves.bind hm fun _ => Moves.ret _ fun _ h => h
  cases op with
  | readU8 => exact Moves.bind (hcheck _ _) fun _ => hdrop fine_naviPortReadByte
  | peekU8 => exact Moves.bind (hcheck _ _) fun _ => hdrop fine_naviPortPeekByte
  | readChar => exact Moves.bind (hcheck _ _) fun _ => hdrop fine_naviPortReadChar
  | peekChar => exact Moves.bind (hcheck _ _) fun _ => hdrop fine_naviPortPeekChar
  | writeU8 b => exact Moves.bind (hcheck _ _) fun _ => fine_naviPortWriteChar _
  | writeChar ch => exact Moves.bind (hcheck _ _) fun _ => fine_naviPortWriteChar _
  | writeString data => exact Moves.bind (hcheck _ _) fun _ => fine_naviPortWriteCstr _
  | newline => exact Moves.bind (hcheck _ _) fun _ => fine_naviPortWriteChar _
  | closePort => exact Moves.bind (fine_closeIfUsed .input) fun _ => fine_closeIfUsed .output
  | closeInputPort => exact Moves.bind (hcheck _ _) fun _ => fine_naviClosePort .input
  | closeOutputPort => exact Moves.bind (hcheck _ _) fun _ => fine_naviClosePort .output

/-- A check, and then `naviClosePort`. -/
theorem shut_checkAndClose (ok : NaviPort → Bool) {msg : String}
    (hok : ∀ p, ok p = NaviPort.usedFor p d) (run : PortRun)
    (hs : ((do raiseUnless ok msg; naviClosePort stream d : PortM Unit) run).state.Succeeds) :
    ((do raiseUnless ok msg; naviClosePort stream d : PortM Unit) run).state.port.shut d =
      true := by
  have heval : (do raiseUnless ok msg; naviClosePort stream d : PortM Unit) run =
      if run.port.usedFor d then naviClosePort stream d run else .error (.raise msg) run := by
    cases hused : run.port.usedFor d <;>
      simp [raiseUnless, bind_apply, get_apply, pure_apply, throw_apply, hok, hused]
  rw [heval] at hs ⊢
  cases hused : run.port.usedFor d with
  | false => cases d <;> simp_all [Result.state, NaviPort.shut, NaviPort.usedFor]
  | true =>
    rw [hused, if_pos rfl] at hs
    obtain ⟨run', hrun, hshut⟩ := naviClosePort_of_succeeds run hs
    rw [if_pos rfl, hrun]
    exact hshut

theorem shut_scmClosePort (d : Direction) (run : PortRun)
    (hs : (scmClosePort stream run).state.Succeeds) :
    (scmClosePort stream run).state.port.shut d = true := by
  rw [scmClosePort, bind_apply] at hs ⊢
  cases hin : closeIfUsed stream .input run with
  | error e run' =>
    rw [hin] at hs
    obtain ⟨run'', hrun, -⟩ := closeIfUsed_of_succeeds run (by rw [hin]; exact hs)
    rw [hrun] at hin
    cases hin
  | ok v run₁ =>
    rw [hin] at hs
    have hfine : Fine (closeIfUsed stream .output) := fine_closeIfUsed .output
    have hfollows := (hfine run₁ trivial).1
    obtain ⟨run₁', hrun₁, hshut₁⟩ :=
      closeIfUsed_of_succeeds run (by rw [hin]; exact hfollows.succeeds hs)
    rw [hin] at hrun₁
    cases hrun₁
    cases d with
    | input => exact hfollows.shut .input hshut₁
    | output =>
      obtain ⟨run₂, hrun₂, hshut₂⟩ := closeIfUsed_of_succeeds run₁ hs
      change (closeIfUsed stream .output run₁).state.port.shut .output = true
      rw [hrun₂]
      exact hshut₂

/-- A procedure that is to close a direction shuts it, unless `fclose` fails. -/
theorem shut_runOp {op : PortAction} (hop : op.closes d = true) (run : PortRun)
    (hs : (runOp stream U u8GetUnchecked op run).state.Succeeds) :
    (runOp stream U u8GetUnchecked op run).state.port.shut d = true := by
  cases op with
  | closePort => exact shut_scmClosePort d run hs
  | closeInputPort =>
    cases d with
    | input => exact shut_checkAndClose NaviPort.isInputPort (fun _ => rfl) run hs
    | output => cases hop
  | closeOutputPort =>
    cases d with
    | input => cases hop
    | output => exact shut_checkAndClose NaviPort.isOutputPort (fun _ => rfl) run hs
  | _ => cases hop

end PortM

/-! ### All calls -/

section

variable {stream : List (StreamCall × ℤ) → StreamCall → ℤ} {U : Unicode}
  {u8GetUnchecked : List UInt8 → ℤ}

theorem runPortActions_append (before after : List PortAction) (run : PortRun) :
    runPortActions stream U u8GetUnchecked (before ++ after) run =
      runPortActions stream U u8GetUnchecked after (runPortActions stream U u8GetUnchecked before run) :=
  List.foldl_append

/-- **A run does what its steps do.** -/
theorem follows_runPortActions (ops : List PortAction) (run : PortRun) :
    run.Follows (runPortActions stream U u8GetUnchecked ops run) := by
  induction ops generalizing run with
  | nil => exact refl_of Follows run
  | cons op ops ih => exact trans_of Follows (PortM.fine_runOp op run trivial).1 (ih _)

/-- **A port whose calls of `fclose` succeed is closed once**, whatever is called. -/
theorem closesOnce_of_succeeds (port : NaviPort) (ops : List PortAction)
    (hs : (runPortActions stream U u8GetUnchecked ops ⟨port, []⟩).Succeeds) :
    ClosesOnce stream U u8GetUnchecked port ops := by
  refine ⟨fun d => ?_, ?_⟩
  · have hbudget := (follows_runPortActions ops ⟨port, []⟩).budget hs d
    have hfresh : PortRun.budget ⟨port, []⟩ d ≤ 1 := by
      simp only [PortRun.budget, PortRun.closeCount, List.countP_nil, Nat.zero_add]
      split <;> omega
    exact (Nat.le_add_right _ _).trans (hbudget.trans hfresh)
  · rintro d before op after rfl hop c hc
    have hsplit : before ++ op :: after = (before ++ [op]) ++ after := by simp
    rw [hsplit, runPortActions_append _ after] at hs hc
    have hafter : (runPortActions stream U u8GetUnchecked (before ++ [op]) ⟨port, []⟩).Follows
        (runPortActions stream U u8GetUnchecked after
          (runPortActions stream U u8GetUnchecked (before ++ [op]) ⟨port, []⟩)) :=
      follows_runPortActions after _
    have hs' := hafter.succeeds hs
    obtain ⟨new, hcalls, hnew⟩ := hafter.calls
    rw [hcalls, List.drop_left] at hc
    refine hnew d ?_ c hc
    rw [runPortActions_append] at hs' ⊢
    exact PortM.shut_runOp hop _ hs'

/-- A file that is open for output. -/
def fileOutputPort : NaviPort :=
  ⟨false, true, false, false, false, true, false, false, false, false, 0⟩

/-- `close-port`, `write-char` and `close-port`, with a `fclose` that succeeds. -/
theorem closesOnce_of_succeeds_file :
    ClosesOnce (fun _ _ => 0) .ascii (fun _ => 0) fileOutputPort
      [.closePort, .writeChar 97, .closePort] :=
  closesOnce_of_succeeds fileOutputPort [.closePort, .writeChar 97, .closePort] (by decide)

/-- **A port may be closed twice**: `fclose` fails, a character is written, and `fclose` is called
again. -/
theorem not_closesOnce :
    ¬ ClosesOnce (fun _ _ => -1) .ascii (fun _ => 0) fileOutputPort
      [.closePort, .writeChar 97, .closePort] := by
  rintro ⟨honce, -⟩
  exact absurd (honce .output) (by decide)

end

end NaviScheme
