import NaviScheme.Heap.Symbols
import NaviScheme.Sequences.Allocate

/-!
# The paths of libraries

`libname_to_path` writes the name of a library to a buffer that is made longer when it is full. To
see whether it is full, `write_char` compares the addresses of the two counters rather than the
counters, and those are of the caller's local variables: where the compiler puts `wp` behind
`length`, the buffer grows with each character, and otherwise never.

A function that writes is described by the text that it appends and by when it does (`Appends`), and
such descriptions compose. `pathLaw_iff` says for which names the path is right.
-/

namespace NaviScheme

/-- A part of the name of a library. -/
inductive LibPart
  | symbol (data : CString)
  | other

/-- The local variables of `libname_to_path`, and the block that `path` points to. -/
structure PathBuffer where
  path : List UInt8
  length : ℕ
  wp : ℕ

/-- What the compiler and the machine determine. -/
structure PathMachine where
  malloc : ℕ → Bool
  /-- The bytes of the memory that is handed out. -/
  unknown : Unknown
  /-- The address of `wp`. -/
  wpAddr : ℕ
  /-- The address of `length`. -/
  lengthAddr : ℕ

section

variable (M : PathMachine)

/-- `if (wp >= length)`, in `write_char`, and what it guards. -/
def growPath (b : PathBuffer) : Except AllocStop PathBuffer :=
  if M.wpAddr ≥ M.lengthAddr then do
    naviCriticalMalloc M.malloc (sizeT (b.length + 128 + 1))
    return { b with
      path := reallocate M.unknown b.path (sizeT (b.length + 128 + 1))
      length := sizeT (b.length + 128) }
  else .ok b

/-- `write_char` -/
def writePathChar (c : UInt8) (b : PathBuffer) : Except AllocStop PathBuffer := do
  let b ← growPath M b
  let path ← liftStop (storeByte b.path b.wp c)
  return { b with path, wp := sizeT (b.wp + 1) }

/-- The loop of `write_path` and of `write_string`, from the character at `i` on. The counter is an
`int`. -/
def writePathChars (f : UInt8 → UInt8) (i : ℕ) (cs : List UInt8) (b : PathBuffer) :
    Except AllocStop PathBuffer :=
  match cs with
  | [] => .ok b
  | c :: cs => do
    let b ← writePathChar M (f c) b
    if i + 1 < 2 ^ 31 then writePathChars f (i + 1) cs b else .error (.stop .fault)

/-- `write_path` -/
def writePath (str : List UInt8) : PathBuffer → Except AllocStop PathBuffer :=
  writePathChars M id 0 str

/-- The character that stands for one of a name. -/
def pathChar (c : UInt8) : UInt8 := if c = toByte (ascii '/') then toByte (ascii '_') else c

/-- `write_string` -/
def writePathString (str : List UInt8) : PathBuffer → Except AllocStop PathBuffer :=
  writePathChars M pathChar 0 str

/-- The loop of `libname_to_path`. -/
def writeParts (parts : List LibPart) (b : PathBuffer) : Except AllocStop PathBuffer :=
  match parts with
  | [] => .ok b
  | .symbol data :: parts => do
    let b ← writePathChar M (toByte (ascii '/')) b
    let b ← writePathString M data.bytes b
    writeParts parts b
  | .other :: parts => writeParts parts b

/-- `libname_to_path`; the block that it returns. -/
def PathMachine.libnameToPath (base : CString) (name : List LibPart) : Except AllocStop (List UInt8) := do
  naviCriticalMalloc M.malloc 129
  let b : PathBuffer := ⟨(List.range 129).map M.unknown.fresh, 128, 0⟩
  let b ← writePath M base.bytes b
  let b ← writeParts M name b
  let b ← writePathString M (cstr ".scm") b
  liftStop (storeByte b.path b.wp 0)

end

/-- What a part of the name becomes. -/
def LibPart.text : LibPart → List UInt8
  | .symbol data => toByte (ascii '/') :: data.bytes.map pathChar
  | .other => []

/-- The path of a library. -/
def pathText (base : CString) (name : List LibPart) : List UInt8 :=
  base.bytes ++ (name.flatMap LibPart.text ++ cstr ".scm")

/-- The law of paths: no store is outside of the block, and the result is the path. -/
def PathLaw (M : PathMachine) (base : CString) (name : List LibPart) : Prop :=
  ∃ path, M.libnameToPath base name = .ok path ∧ (pathText base name).length < path.length ∧
    path.takeWhile (· ≠ 0) = pathText base name

/-! ### Writing -/

section Writing

variable {M : PathMachine} {b b' : PathBuffer} {t s : List UInt8} {p q : Prop}

/-- There is room for the character with so many in front of it. -/
def Fits (M : PathMachine) (j : ℕ) : Prop :=
  if M.wpAddr ≥ M.lengthAddr then M.malloc (128 * (j + 2) + 1) = true else j ≤ 128

/-- The text has been written, and the block is as long as it is made by then. -/
structure Written (M : PathMachine) (b : PathBuffer) (t : List UInt8) : Prop where
  wp : b.wp = t.length
  length : b.length = if M.wpAddr ≥ M.lengthAddr then 128 * (t.length + 1) else 128
  length_lt : b.length < 2 ^ 63
  path_length : b.path.length = b.length + 1
  le : t.length ≤ b.path.length
  text : b.path.take t.length = t

/-- A function that appends a text, if a condition is met and there is room. -/
def Appends (M : PathMachine) (m : PathBuffer → Except AllocStop PathBuffer) (s : List UInt8)
    (p : Prop) : Prop :=
  ∀ b t, Written M b t →
    (p → (∀ j < s.length, Fits M (t.length + j)) → ∃ b', m b = .ok b' ∧ Written M b' (t ++ s)) ∧
    ∀ b', m b = .ok b' → p ∧ ∀ j < s.length, Fits M (t.length + j)

/-- What has been appended is the text. -/
theorem Appends.written {m : PathBuffer → Except AllocStop PathBuffer} (h : Appends M m s p)
    (hb : Written M b t) (hm : m b = .ok b') : Written M b' (t ++ s) := by
  obtain ⟨hp, hfits⟩ := (h b t hb).2 b' hm
  obtain ⟨b'', hm', hb'⟩ := (h b t hb).1 hp hfits
  cases hm.symm.trans hm'
  exact hb'

theorem appends_ok : Appends M .ok [] True := by
  intro b t hb
  refine ⟨fun _ _ => ⟨b, rfl, (List.append_nil t).symm ▸ hb⟩, fun _ _ => ⟨trivial, nofun⟩⟩

theorem forall_fits_append {n : ℕ} {s s' : List UInt8} :
    (∀ j < (s ++ s').length, Fits M (n + j)) ↔
      (∀ j < s.length, Fits M (n + j)) ∧ ∀ j < s'.length, Fits M (n + s.length + j) := by
  rw [List.length_append]
  constructor
  · refine fun h => ⟨fun j hj => h j (by omega), fun j hj => ?_⟩
    rw [Nat.add_assoc]
    exact h _ (by omega)
  · rintro ⟨h, h'⟩ j hj
    obtain hlt | hge := Nat.lt_or_ge j s.length
    · exact h j hlt
    · obtain ⟨k, rfl⟩ := Nat.exists_eq_add_of_le hge
      rw [← Nat.add_assoc]
      exact h' k (by omega)

/-- One function behind the other. -/
theorem Appends.bind {m m' : PathBuffer → Except AllocStop PathBuffer} {s s' : List UInt8}
    (h : Appends M m s p) (h' : Appends M m' s' q) :
    Appends M (fun b => m b >>= m') (s ++ s') (p ∧ q) := by
  intro b t hb
  rw [forall_fits_append]
  constructor
  · rintro ⟨hp, hq⟩ ⟨hs, hs'⟩
    obtain ⟨b', hm, hb'⟩ := (h b t hb).1 hp hs
    rw [← List.length_append] at hs'
    obtain ⟨b'', hm', hb''⟩ := (h' b' (t ++ s) hb').1 hq hs'
    refine ⟨b'', ?_, ?_⟩
    · exact (congrArg (· >>= m') hm).trans hm'
    · rwa [← List.append_assoc]
  · intro b'' hm''
    obtain ⟨b', hm, hm'⟩ := bind_eq_ok hm''
    obtain ⟨hp, hs⟩ := (h b t hb).2 b' hm
    obtain ⟨hq, hs'⟩ := (h' b' (t ++ s) (h.written hb hm)).2 b'' hm'
    rw [List.length_append] at hs'
    exact ⟨⟨hp, hq⟩, hs, hs'⟩

theorem length_reallocate {u : Unknown} {data : List UInt8} {n : ℕ} (h : data.length ≤ n) :
    (reallocate u data n).length = n := by
  rw [reallocate, List.length_append, List.length_map, List.length_range, List.length_take]
  omega

theorem take_reallocate {u : Unknown} {data : List UInt8} {n k : ℕ} (h : data.length ≤ n)
    (hk : k ≤ data.length) : (reallocate u data n).take k = data.take k := by
  rw [reallocate, List.take_append_of_le_length (by rw [List.length_take]; omega), List.take_take,
    min_eq_left (by omega)]

theorem take_set_succ {data : List UInt8} {n : ℕ} {c : UInt8} (h : n < data.length) :
    (data.set n c).take (n + 1) = data.take n ++ [c] := by
  rw [List.take_add_one, List.take_set_of_le le_rfl, List.getElem?_set_self h]
  rfl

/-- Behind the test, the block is as long as it is made for the next character. -/
theorem growPath_cases (hmax : ∀ k, M.malloc k → k < 2 ^ 63) (hb : Written M b t) :
    (Fits M t.length → ∃ b', growPath M b = .ok b') ∧
      ∀ b', growPath M b = .ok b' → b'.wp = t.length ∧ b'.path.length = b'.length + 1 ∧
        (b'.length = if M.wpAddr ≥ M.lengthAddr then 128 * (t.length + 2) else 128) ∧
        b'.length < 2 ^ 63 ∧ b'.path.take t.length = t ∧
        (Fits M t.length ↔ t.length < b'.path.length) := by
  obtain ⟨hwp, hlength, hlt, hpath, hle, htext⟩ := hb
  rw [growPath, Fits]
  split
  · rename_i hgrow
    rw [if_pos hgrow] at hlength
    have hbytes : sizeT (b.length + 128 + 1) = 128 * (t.length + 2) + 1 := by
      rw [sizeT]
      omega
    have hnew : sizeT (b.length + 128) = 128 * (t.length + 2) := by
      rw [sizeT]
      omega
    rw [naviCriticalMalloc, hbytes, hnew]
    constructor
    · intro hmalloc
      rw [if_pos hmalloc]
      exact ⟨_, rfl⟩
    · intro b' hb'
      by_cases hmalloc : M.malloc (128 * (t.length + 2) + 1) = true
      · rw [if_pos hmalloc] at hb'
        cases hb'
        have hlonger : b.path.length ≤ 128 * (t.length + 2) + 1 := by omega
        have hmax := hmax _ hmalloc
        dsimp only
        rw [length_reallocate hlonger, take_reallocate hlonger hle]
        exact ⟨hwp, rfl, rfl, by omega, htext, iff_of_true hmalloc (by omega)⟩
      · rw [if_neg hmalloc] at hb'
        cases hb'
  · rename_i hgrow
    rw [if_neg hgrow] at hlength
    refine ⟨fun _ => ⟨b, rfl⟩, fun b' hb' => ?_⟩
    cases hb'
    exact ⟨hwp, hpath, hlength, hlt, htext, by omega⟩

/-- `write_char` appends a character. -/
theorem appends_writePathChar (hmax : ∀ k, M.malloc k → k < 2 ^ 63) (c : UInt8) :
    Appends M (writePathChar M c) [c] True := by
  intro b t hb
  obtain ⟨hgrow, hgrown⟩ := growPath_cases hmax hb
  have hone : (∀ j < [c].length, Fits M (t.length + j)) ↔ Fits M t.length := by
    rw [List.length_singleton]
    refine ⟨fun h => h 0 one_pos, fun h j hj => ?_⟩
    obtain rfl : j = 0 := by omega
    exact h
  rw [hone]
  constructor
  · intro _ hfits
    obtain ⟨b', hb'⟩ := hgrow hfits
    obtain ⟨hwp, hpath, hlength, hlt, htext, hroom⟩ := hgrown b' hb'
    have hlt' := hroom.mp hfits
    have hstore : storeByte b'.path b'.wp c = .ok (b'.path.set t.length c) :=
      storeByte_eq_ok.mpr ⟨t.length, by rw [hwp], hlt', rfl⟩
    refine ⟨{ b' with path := b'.path.set t.length c, wp := t.length + 1 }, ?_, ?_⟩
    · have hwp' : sizeT (b'.wp + 1) = t.length + 1 := by
        rw [hwp, sizeT]
        omega
      rw [writePathChar, hb', ok_bind, hstore, hwp']
      rfl
    · refine ⟨?_, ?_, hlt, ?_, ?_, ?_⟩
      · rw [List.length_append]
        rfl
      · rw [List.length_append]
        exact hlength
      · rw [List.length_set]
        exact hpath
      · rw [List.length_set, List.length_append]
        exact hlt'
      · rw [List.length_append, List.length_singleton, take_set_succ hlt', htext]
  · intro b'' hb''
    obtain ⟨b', hb', hb''⟩ := bind_eq_ok hb''
    obtain ⟨hwp, -, -, -, -, hroom⟩ := hgrown b' hb'
    refine ⟨trivial, hroom.mpr ?_⟩
    by_contra hge
    have hstore : storeByte b'.path b'.wp c = .error .fault := by
      rw [storeByte, if_neg]
      rw [hwp]
      omega
    rw [hstore] at hb''
    cases hb''

/-- A string is appended, if its length is an `int`. -/
theorem appends_writePathChars (hmax : ∀ k, M.malloc k → k < 2 ^ 63) (f : UInt8 → UInt8)
    (cs : List UInt8) : ∀ i < 2 ^ 31, Appends M (writePathChars M f i cs) (cs.map f)
      (i + cs.length < 2 ^ 31) := by
  induction cs with
  | nil =>
    intro i hi b t hb
    have hok := appends_ok (M := M) b t hb
    exact ⟨fun _ => hok.1 trivial, fun b' hb' => ⟨hi, (hok.2 b' hb').2⟩⟩
  | cons c cs ih =>
    intro i hi
    by_cases hlt : i + 1 < 2 ^ 31
    · have hrun : writePathChars M f i (c :: cs) =
          fun b => writePathChar M (f c) b >>= writePathChars M f (i + 1) cs := by
        funext b
        rw [writePathChars]
        simp only [if_pos hlt]
      have hlength : (True ∧ i + 1 + cs.length < 2 ^ 31) = (i + (c :: cs).length < 2 ^ 31) := by
        rw [true_and, List.length_cons, Nat.add_assoc, Nat.add_comm 1]
      rw [hrun, ← hlength]
      exact (appends_writePathChar hmax (f c)).bind (ih (i + 1) hlt)
    · intro b t hb
      refine ⟨fun h => ?_, fun b' hb' => ?_⟩
      · rw [List.length_cons] at h
        omega
      · obtain ⟨b₁, -, hb'⟩ := bind_eq_ok hb'
        rw [if_neg hlt] at hb'
        cases hb'

theorem appends_writeParts (hmax : ∀ k, M.malloc k → k < 2 ^ 63) (parts : List LibPart) :
    Appends M (writeParts M parts) (parts.flatMap LibPart.text)
      (∀ data, .symbol data ∈ parts → data.bytes.length < 2 ^ 31) := by
  induction parts with
  | nil =>
    intro b t hb
    have hok := appends_ok (M := M) b t hb
    exact ⟨fun _ => hok.1 trivial, fun b' hb' => ⟨nofun, (hok.2 b' hb').2⟩⟩
  | cons part parts ih =>
    cases part with
    | other =>
      have hcond : (∀ data, .symbol data ∈ .other :: parts → data.bytes.length < 2 ^ 31) =
          ∀ data, .symbol data ∈ parts → data.bytes.length < 2 ^ 31 := by
        simp
      rw [hcond]
      exact ih
    | symbol data =>
      have hcond : (True ∧ 0 + data.bytes.length < 2 ^ 31 ∧
          ∀ data, .symbol data ∈ parts → data.bytes.length < 2 ^ 31) =
          ∀ data', .symbol data' ∈ .symbol data :: parts → data'.bytes.length < 2 ^ 31 := by
        simp
      rw [← hcond]
      exact (appends_writePathChar hmax _).bind
        ((appends_writePathChars hmax pathChar data.bytes 0 (by norm_num)).bind ih)

end Writing

/-! ### The path -/

section Path

variable {M : PathMachine} {base : CString} {name : List LibPart} {path : List UInt8}

/-- There is room for a path of so many characters and the zero behind it. -/
def Room (M : PathMachine) (n : ℕ) : Prop :=
  if M.wpAddr ≥ M.lengthAddr then ∀ j < n, M.malloc (128 * (j + 2) + 1) = true else n ≤ 128

/-- The strings can be counted with an `int`. -/
def Countable (base : CString) (name : List LibPart) : Prop :=
  base.bytes.length < 2 ^ 31 ∧ ∀ data, .symbol data ∈ name → data.bytes.length < 2 ^ 31

theorem appends_path (hmax : ∀ k, M.malloc k → k < 2 ^ 63) (base : CString) (name : List LibPart) :
    Appends M (fun b => writePath M base.bytes b >>= fun b => writeParts M name b >>=
      writePathString M (cstr ".scm")) (pathText base name) (Countable base name) := by
  have hscm : (cstr ".scm").map pathChar = cstr ".scm" := by decide
  have hparts := (appends_writeParts hmax name).bind
    (appends_writePathChars hmax pathChar (cstr ".scm") 0 (by norm_num))
  have hall := (appends_writePathChars hmax id base.bytes 0 (by norm_num)).bind hparts
  rw [hscm, List.map_id] at hall
  have hcond : (0 + base.bytes.length < 2 ^ 31 ∧
      (∀ data, .symbol data ∈ name → data.bytes.length < 2 ^ 31) ∧
        0 + (cstr ".scm").length < 2 ^ 31) = Countable base name := by
    have hlength : 0 + (cstr ".scm").length < 2 ^ 31 := by decide
    rw [Countable, Nat.zero_add, and_iff_left_of_imp fun _ => hlength]
  rw [hcond] at hall
  exact hall

theorem written_nil (M : PathMachine) :
    Written M ⟨(List.range 129).map M.unknown.fresh, 128, 0⟩ [] where
  wp := rfl
  length := by
    split <;> rfl
  length_lt := by norm_num
  path_length := by
    rw [List.length_map, List.length_range]
  le := Nat.zero_le _
  text := rfl

theorem Room.fits {n j : ℕ} (h : Room M n) (hj : j < n) : Fits M j := by
  rw [Room] at h
  rw [Fits]
  split
  · rename_i hgrow
    rw [if_pos hgrow] at h
    exact h j hj
  · rename_i hgrow
    rw [if_neg hgrow] at h
    omega

/-- Where there was room for all characters, there is one for the zero. -/
theorem Written.room_iff {b : PathBuffer} {t : List UInt8} (hb : Written M b t)
    (hfits : ∀ j < t.length, Fits M j) : Room M t.length ↔ t.length < b.path.length := by
  obtain ⟨-, hlength, -, hpath, -, -⟩ := hb
  rw [Room]
  split
  · rename_i hgrow
    rw [if_pos hgrow] at hlength
    refine iff_of_true (fun j hj => ?_) (by omega)
    have hfit := hfits j hj
    rwa [Fits, if_pos hgrow] at hfit
  · rename_i hgrow
    rw [if_neg hgrow] at hlength
    omega

theorem liftStop_eq_ok {β : Type} {x : Except StringStop β} {y : β} (h : liftStop x = .ok y) :
    x = .ok y := by
  cases x with
  | ok z => exact congrArg _ (Except.ok.inj h)
  | error e => cases h

/-- What the function has done where it returns, and when it does. -/
theorem libnameToPath_cases (hmax : ∀ k, M.malloc k → k < 2 ^ 63) (base : CString)
    (name : List LibPart) :
    (M.malloc 129 = true ∧ Countable base name ∧ Room M (pathText base name).length →
      ∃ path, M.libnameToPath base name = .ok path) ∧
    ∀ path, M.libnameToPath base name = .ok path →
      (M.malloc 129 = true ∧ Countable base name ∧ Room M (pathText base name).length) ∧
        path.take (pathText base name).length = pathText base name ∧
        path[(pathText base name).length]? = some 0 := by
  have hwrites := appends_path hmax base name _ _ (written_nil M)
  have hrun : M.libnameToPath base name = naviCriticalMalloc M.malloc 129 >>= fun _ =>
      (writePath M base.bytes ⟨(List.range 129).map M.unknown.fresh, 128, 0⟩ >>= fun b =>
        writeParts M name b >>= writePathString M (cstr ".scm")) >>= fun b =>
        liftStop (storeByte b.path b.wp 0) := by
    simp only [PathMachine.libnameToPath, bind_assoc]
  rw [List.nil_append, List.length_nil] at hwrites
  simp only [Nat.zero_add] at hwrites
  rw [hrun, naviCriticalMalloc]
  constructor
  · rintro ⟨hmalloc, hcount, hroom⟩
    obtain ⟨b, hb, hwritten⟩ := hwrites.1 hcount fun j hj => hroom.fits hj
    have hlt := (hwritten.room_iff fun j hj => hroom.fits hj).mp hroom
    refine ⟨b.path.set (pathText base name).length 0, ?_⟩
    have hstore : storeByte b.path b.wp 0 = .ok (b.path.set (pathText base name).length 0) :=
      storeByte_eq_ok.mpr ⟨_, by rw [hwritten.wp], hlt, rfl⟩
    rw [if_pos hmalloc, ok_bind, hb, ok_bind, hstore]
    rfl
  · intro path hpath
    by_cases hmalloc : M.malloc 129 = true
    · rw [if_pos hmalloc, ok_bind] at hpath
      obtain ⟨b, hb, hpath⟩ := bind_eq_ok hpath
      obtain ⟨hcount, hfits⟩ := hwrites.2 b hb
      obtain ⟨b', hb', hwritten⟩ := hwrites.1 hcount hfits
      cases hb.symm.trans hb'
      obtain ⟨n, hn, hlt, rfl⟩ := storeByte_eq_ok.mp (liftStop_eq_ok hpath)
      obtain rfl : n = (pathText base name).length := by
        rw [hwritten.wp] at hn
        exact (Int.ofNat_inj.mp hn).symm
      refine ⟨⟨hmalloc, hcount, (hwritten.room_iff hfits).mpr hlt⟩, ?_, ?_⟩
      · rw [List.take_set_of_le le_rfl, hwritten.text]
      · exact List.getElem?_set_self hlt
    · rw [if_neg hmalloc] at hpath
      cases hpath

theorem pathChar_ne_zero {c : UInt8} (h : c ≠ 0) : pathChar c ≠ 0 := by
  rw [pathChar]
  split
  · decide
  · exact h

theorem ne_zero_of_mem_pathText : ∀ b ∈ pathText base name, b ≠ 0 := by
  intro b hb
  rw [pathText, List.mem_append, List.mem_append, List.mem_flatMap] at hb
  obtain hb | ⟨part, -, hb⟩ | hb := hb
  · exact base.ne_zero b hb
  · cases part with
    | other => cases hb
    | symbol data =>
      obtain rfl | hb := List.mem_cons.mp hb
      · decide
      · obtain ⟨c, hc, rfl⟩ := List.mem_map.mp hb
        exact pathChar_ne_zero (data.ne_zero c hc)
  · have hall : ((cstr ".scm").all fun b => b ≠ 0) = true := by decide
    exact of_decide_eq_true (List.all_eq_true.mp hall b hb)

/-- The C string at the beginning of a block. -/
theorem takeWhile_of_zero {data t : List UInt8} (ht : ∀ b ∈ t, b ≠ 0)
    (htake : data.take t.length = t) (hzero : data[t.length]? = some 0) :
    data.takeWhile (· ≠ 0) = t := by
  have hdata : data = t ++ 0 :: data.drop (t.length + 1) := by
    conv_lhs => rw [← List.take_append_drop t.length data, htake,
      List.drop_eq_getElem?_toList_append, hzero]
    rfl
  rw [hdata, List.takeWhile_append_of_pos fun b hb => decide_eq_true (ht b hb),
    List.takeWhile_cons_of_neg (by decide), List.append_nil]

/-- **The path of a library is right exactly if** no string has `2 ^ 31` bytes or more, the blocks
are there, and where `wp` is in front of `length` in memory, the path has at most 128 characters. -/
theorem pathLaw_iff (hmax : ∀ k, M.malloc k → k < 2 ^ 63) (base : CString) (name : List LibPart) :
    PathLaw M base name ↔
      M.malloc 129 = true ∧ Countable base name ∧ Room M (pathText base name).length := by
  obtain ⟨hreturns, hdone⟩ := libnameToPath_cases hmax base name
  constructor
  · rintro ⟨path, hpath, -⟩
    exact (hdone path hpath).1
  · intro h
    obtain ⟨path, hpath⟩ := hreturns h
    obtain ⟨-, htake, hzero⟩ := hdone path hpath
    obtain ⟨hlt, -⟩ := List.getElem?_eq_some_iff.mp hzero
    exact ⟨path, hpath, hlt, takeWhile_of_zero ne_zero_of_mem_pathText htake hzero⟩

/-- A machine that has blocks of up to `2 ^ 47` bytes, with the addresses of the counters. -/
def machineWith (wpAddr lengthAddr : ℕ) : PathMachine :=
  ⟨mallocUpTo, ⟨fun _ => 0, fun _ => 0, fun _ _ => 0, fun _ => 0⟩, wpAddr, lengthAddr⟩

/-- The base path. -/
def dotPath : CString := .ofBytes (cstr ".")

/-- `(scheme base)` -/
def schemeBase : List LibPart :=
  [.symbol (.ofBytes (cstr "scheme")), .symbol (.ofBytes (cstr "base"))]

theorem pathLaw_iff_schemeBase : PathLaw (machineWith 0 8) dotPath schemeBase := by
  refine (pathLaw_iff (fun _ => lt_of_mallocUpTo) dotPath schemeBase).mpr
    ⟨by decide, ⟨by decide, ?_⟩, ?_⟩
  · simp only [schemeBase, List.mem_cons, LibPart.symbol.injEq]
    rintro data (rfl | rfl | h)
    · decide
    · decide
    · cases h
  · rw [Room, if_neg (by decide)]
    decide

/-- A name with one part, of 200 characters. -/
def longName : List LibPart :=
  [.symbol ⟨List.replicate 200 97, fun b hb => by rw [(List.mem_replicate.mp hb).2]; decide⟩]

/-- **Where `wp` is in front of `length`**, the path of a name of 200 characters is written past the
end of the block. -/
theorem not_pathLaw : ¬ PathLaw (machineWith 0 8) dotPath longName := by
  rintro ⟨path, hpath, -⟩
  obtain ⟨-, -, hroom⟩ :=
    ((libnameToPath_cases (fun _ => lt_of_mallocUpTo) dotPath longName).2 path hpath).1
  rw [Room, if_neg (by decide)] at hroom
  have hlength : (pathText dotPath longName).length = 206 := by
    simp only [pathText, longName, LibPart.text, List.flatMap_cons, List.flatMap_nil,
      List.map_replicate, List.length_append, List.length_cons, List.length_replicate]
    rfl
  omega

end Path

end NaviScheme
