import NaviScheme.Reader.Halting

/-!
# How the readers call each other

`navi_read`, `read_sharp` and `read_list` are each cut in two: what the function does before it
calls a reader (`NaviScheme.readHead` and so on, which do not recurse), and which reader it
calls then (`NaviScheme.readNext` and so on). The functions are their two parts
(`NaviScheme.naviRead_succ`).
-/

namespace NaviScheme

open Fuel

/-! ### `navi_read` -/

/-- What `navi_read` goes on with. -/
inductive ReadNext
  /-- The datum has been read. -/
  | done (d : Datum)
  /-- `read_string` -/
  | string
  /-- `navi_sym_wrap`, with the datum that follows -/
  | wrap (symbol : String)
  /-- `read_sharp` -/
  | sharp
  /-- `read_list` -/
  | list
  /-- `navi_read`, behind a comment -/
  | again

/-- `navi_read`, as far as its own calls of a reader. -/
def readHead (n : ℕ) : ReadM ReadNext := do
  let c ← peekFirstChar n
  if isdigit c then do
    let v ← readDecimal n
    return .done (.fixnum v)
  else if c = doubleQuote then do
    let _ ← readChar
    return .string
  else if c = 0x27 then do
    let _ ← readChar
    return .wrap "quote"
  else if c = 0x60 then do
    let _ ← readChar
    return .wrap "quasiquote"
  else if c = ascii ',' then do
    let _ ← readChar
    let c ← ipeekChar
    if c = ascii '@' then do
      let _ ← readChar
      return .wrap "unquote-splice"
    else return .wrap "unquote"
  else if c = ascii '#' then do
    let _ ← readChar
    return .sharp
  else if c = ascii '(' then do
    let _ ← readChar
    return .list
  else if c = ascii ')' then do
    let _ ← readChar
    throw (naviReadError "unexpected character" [("character", .char c)])
  else if c = ascii ';' then do
    consumeLine n
    return .again
  else if c = eofValue then return .done .eof
  else if c = ascii '|' then do
    let _ ← readChar
    let expr ← readSymbol ispipe n
    let _ ← readChar
    return .done expr
  else if c = ascii '+' ∨ c = ascii '-' then do
    let _ ← readChar
    let d ← peekChar
    if isdigit d then do
      let v ← readDecimal n
      return .done (naviMakeFixnum (v * if c = ascii '+' then 1 else -1))
    else do
      let expr ← readSymbolWithPrefix c n
      return .done expr
  else do
    let expr ← readSymbol (fun c => .ok (isterminal c)) n
    return .done expr

variable (X : ReadEnv)

/-- `navi_read`, behind `readHead`. -/
def readNext (n : ℕ) : ReadNext → ReadM Datum
  | .done d => return d
  | .string => readString X n
  | .wrap symbol => do
    let expr ← naviRead X n
    return naviSymWrap symbol expr
  | .sharp => do
    let expr ← readSharp X n
    if expr.isVoid then naviRead X n else return expr
  | .list => readList X n []
  | .again => naviRead X n

/-- A branch of a function that is cut in two. -/
theorem ite_eq_ite_bind {α β : Type} {c : Prop} [Decidable c] {m m' : ReadM β} {l l' : ReadM α}
    {f : α → ReadM β} (h : c → m = l >>= f) (h' : ¬ c → m' = l' >>= f) :
    (if c then m else m') = (if c then l else l') >>= f := by
  by_cases hc : c
  · rw [if_pos hc, if_pos hc]
    exact h hc
  · rw [if_neg hc, if_neg hc]
    exact h' hc

theorem bind_eq_bind_bind {α β γ : Type} {x : ReadM γ} {m : γ → ReadM β} {l : γ → ReadM α}
    {f : α → ReadM β} (h : ∀ c, m c = l c >>= f) : x >>= m = (x >>= l) >>= f := by
  rw [bind_assoc]
  exact bind_congr h

theorem naviRead_succ (n : ℕ) : naviRead X (n + 1) = readHead n >>= readNext X n := by
  rw [naviRead, readHead]
  refine bind_eq_bind_bind fun c => ?_
  -- what is behind the last call of the head is returned or called at once
  refine ite_eq_ite_bind (fun _ => bind_eq_bind_bind fun _ => rfl) fun _ =>
    ite_eq_ite_bind (fun _ => bind_eq_bind_bind fun _ => rfl) fun _ =>
    ite_eq_ite_bind (fun _ => bind_eq_bind_bind fun _ => rfl) fun _ =>
    ite_eq_ite_bind (fun _ => bind_eq_bind_bind fun _ => rfl) fun _ =>
    ite_eq_ite_bind (fun _ => bind_eq_bind_bind fun _ => bind_eq_bind_bind fun _ =>
      ite_eq_ite_bind (fun _ => bind_eq_bind_bind fun _ => rfl) fun _ => rfl) fun _ =>
    ite_eq_ite_bind (fun _ => bind_eq_bind_bind fun _ => rfl) fun _ =>
    ite_eq_ite_bind (fun _ => bind_eq_bind_bind fun _ => rfl) fun _ =>
    ite_eq_ite_bind (fun _ => bind_eq_bind_bind fun _ => rfl) fun _ =>
    ite_eq_ite_bind (fun _ => bind_eq_bind_bind fun _ => rfl) fun _ =>
    ite_eq_ite_bind (fun _ => rfl) fun _ =>
    ite_eq_ite_bind (fun _ => bind_eq_bind_bind fun _ => bind_eq_bind_bind fun _ =>
      bind_eq_bind_bind fun _ => rfl) fun _ =>
    ite_eq_ite_bind (fun _ => bind_eq_bind_bind fun _ => bind_eq_bind_bind fun _ =>
      ite_eq_ite_bind (fun _ => bind_eq_bind_bind fun _ => rfl) fun _ => ?_) fun _ => ?_
  · exact (bind_pure _).symm.trans (bind_eq_bind_bind fun _ => rfl)
  · exact (bind_pure _).symm.trans (bind_eq_bind_bind fun _ => rfl)

/-! ### `read_sharp` -/

/-- What `read_sharp` goes on with. -/
inductive SharpNext
  /-- The datum has been read, or a comment. -/
  | done (d : Datum)
  /-- `read_vector` -/
  | vector
  /-- `read_bytevec` -/
  | bytevec
  /-- `navi_get_internal` of the datum that follows -/
  | internal
  /-- a comment that is a datum -/
  | comment

/-- `read_sharp`, as far as its own calls of a reader. -/
def sharpHead (n : ℕ) : ReadM SharpNext := do
  let c := toChar (← ireadChar)
  if c = ascii 't' ∨ c = ascii 'f' then do
    let d ← readBoolean c n
    return .done d
  else if c = backslash then do
    let d ← readCharacter X n
    return .done d
  else if c = ascii '(' then return .vector
  else if c = ascii 'u' then do
    let d ← ireadChar
    if toChar d ≠ ascii '8' then
      throw (naviReadError "unknown disciminator" [("discriminator", .char c)])
    else do
      let d ← ireadChar
      if toChar d ≠ ascii '(' then
        throw (naviReadError "unknown disciminator" [("discriminator", .char c)])
      else return .bytevec
  else if c = ascii 'b' then do
    let v ← readBinary n
    return .done (.fixnum v)
  else if c = ascii 'o' then do
    let v ← readOctal n
    return .done (.fixnum v)
  else if c = ascii 'x' then do
    let v ← readHex n
    return .done (.fixnum v)
  else if c = ascii '!' then do
    let d ← readSharpBang n
    return .done d
  else if c = ascii '#' then return .internal
  else if c = ascii ';' then return .comment
  else if c = ascii '|' then do
    blockComment n
    return .done .void
  else if c = ascii '/' then do
    skipUntil newline false n
    return .done .void
  else throw (naviReadError "unknown disciminator" [("discriminator", .char c)])

/-- `read_sharp`, behind `sharpHead`. -/
def sharpNext (n : ℕ) : SharpNext → ReadM Datum
  | .done d => return d
  | .vector => do
    let list ← readList X n []
    return .vector list.elements
  | .bytevec => do
    let list ← readList X n []
    naviListToBytevec list
  | .internal => do
    let symbol ← naviRead X n
    X.naviGetInternal symbol
  | .comment => do
    let _ ← naviRead X n
    return .void

theorem readSharp_succ (n : ℕ) : readSharp X (n + 1) = sharpHead X n >>= sharpNext X n := by
  rw [readSharp, sharpHead]
  refine bind_eq_bind_bind fun c => ?_
  refine ite_eq_ite_bind (fun _ => ?_) fun _ => ite_eq_ite_bind (fun _ => ?_) fun _ =>
    ite_eq_ite_bind (fun _ => rfl) fun _ =>
    ite_eq_ite_bind (fun _ => bind_eq_bind_bind fun _ => ite_eq_ite_bind (fun _ => rfl) fun _ =>
      bind_eq_bind_bind fun _ => ite_eq_ite_bind (fun _ => rfl) fun _ => rfl) fun _ =>
    ite_eq_ite_bind (fun _ => bind_eq_bind_bind fun _ => rfl) fun _ =>
    ite_eq_ite_bind (fun _ => bind_eq_bind_bind fun _ => rfl) fun _ =>
    ite_eq_ite_bind (fun _ => bind_eq_bind_bind fun _ => rfl) fun _ =>
    ite_eq_ite_bind (fun _ => ?_) fun _ => ite_eq_ite_bind (fun _ => rfl) fun _ =>
    ite_eq_ite_bind (fun _ => rfl) fun _ =>
    ite_eq_ite_bind (fun _ => bind_eq_bind_bind fun _ => rfl) fun _ =>
    ite_eq_ite_bind (fun _ => bind_eq_bind_bind fun _ => rfl) fun _ => rfl
  · exact (bind_pure _).symm.trans (bind_eq_bind_bind fun _ => rfl)
  · exact (bind_pure _).symm.trans (bind_eq_bind_bind fun _ => rfl)
  · exact (bind_pure _).symm.trans (bind_eq_bind_bind fun _ => rfl)

/-! ### `read_list` -/

/-- What `read_list` goes on with. -/
inductive ListNext
  /-- The list has been closed. -/
  | close
  /-- the datum behind a dot -/
  | last
  /-- An element has been read. -/
  | symbol (expr : Datum)
  /-- `read_sharp` -/
  | sharp
  /-- A comment has been skipped. -/
  | skip
  /-- `navi_read`, for an element -/
  | element

/-- A round of the loop of `read_list`, as far as its own calls of a reader. -/
def listHead (n : ℕ) : ReadM ListNext := do
  let c := toChar (← ipeekFirstChar n)
  if c = ascii ')' then do
    let _ ← readChar
    return .close
  else if c = ascii '.' then do
    let _ ← readChar
    let c := toChar (← ipeekChar)
    if isterminal c then return .last
    else do
      let expr ← readSymbolWithPrefix (ascii '.') n
      return .symbol expr
  else if c = ascii '#' then do
    let _ ← readChar
    return .sharp
  else if c = ascii ';' then do
    consumeLine n
    return .skip
  else return .element

/-- A round of the loop of `read_list`, behind `listHead`. -/
def listNext (n : ℕ) (elms : List Datum) : ListNext → ReadM Datum
  | .close => return Datum.listTail elms .nil
  | .last => do
    let last ← naviRead X n
    let c ← peekFirstChar n
    if toChar c = ascii ')' then do
      let _ ← readChar
      return Datum.listTail elms last
    else throw (naviReadError "missing list terminator" [])
  | .symbol expr => readList X n (elms ++ [expr])
  | .sharp => do
    let expr ← readSharp X n
    if expr.isVoid then readList X n elms else readList X n (elms ++ [expr])
  | .skip => readList X n elms
  | .element => do
    let expr ← naviRead X n
    if expr.isEof then throw unexpectedEof else readList X n (elms ++ [expr])

theorem readList_succ (n : ℕ) (elms : List Datum) :
    readList X (n + 1) elms = listHead n >>= listNext X n elms := by
  rw [readList, listHead]
  refine bind_eq_bind_bind fun c => ?_
  exact ite_eq_ite_bind (fun _ => bind_eq_bind_bind fun _ => rfl) fun _ =>
    ite_eq_ite_bind (fun _ => bind_eq_bind_bind fun _ => bind_eq_bind_bind fun _ =>
      ite_eq_ite_bind (fun _ => rfl) fun _ => bind_eq_bind_bind fun _ => rfl) fun _ =>
    ite_eq_ite_bind (fun _ => bind_eq_bind_bind fun _ => rfl) fun _ =>
    ite_eq_ite_bind (fun _ => bind_eq_bind_bind fun _ => rfl) fun _ => rfl

end NaviScheme
