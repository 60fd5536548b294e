import NaviScheme.Reader.Gap

/-!
# Comments

A line comment, a block comment or a datum comment that takes the place of white space between two
tokens is skipped: the reader goes on behind it as if nothing had been there. There are three
exceptions (`NaviScheme.neutral_iff`). Behind the last element of a list with a dot, nothing but the
closing parenthesis is looked for. In a block comment, the characters behind a pipe are not looked
at again, so that its end is missed if the text ends in an odd number of pipes. And a directive in
the datum of a datum comment is carried out.
-/

namespace NaviScheme

open Fuel

/-- A comment. -/
inductive Comment
  /-- up to the end of the line -/
  | line (cs : List Char)
  /-- between `#|` and `|#` -/
  | block (cs : List Char)
  /-- a datum behind `#;` -/
  | datum (cs : List Char)

/-- Some characters read as a datum, in front of a space; a directive among them may have changed
whether the port folds case. -/
def ReadsAsDatum (X : ReadEnv) (fold : Bool) (cs : List Char) (fold' : Bool) : Prop :=
  ∃ (p : Port) (d : Datum) (w : Char) (t : List Char), isspace w.toNat = true ∧
    p.Stands (cs ++ w :: t) fold ∧ Gives (naviRead X) p d (w :: t) fold'

/-- The number of pipes at the end of a text. -/
def trailingPipes (cs : List Char) : ℕ := (cs.rtakeWhile (· = '|')).length

namespace Comment

/-- The characters of a comment. -/
def text : Comment → List Char
  | line cs => ';' :: (cs ++ [newlineChar])
  | block cs => '#' :: '|' :: (cs ++ ['|', '#'])
  | datum cs => '#' :: ';' :: cs

/-- What stands inside a comment. -/
def Valid (X : ReadEnv) (fold : Bool) : Comment → Prop
  | line cs => newlineChar ∉ cs
  | block cs => ¬ ['|', '#'] <:+: cs ∧ ¬ ['#', '|'] <:+: cs
  | datum cs => ∃ fold', ReadsAsDatum X fold cs fold'

/-- The end of the comment is met, and nothing is changed by it. -/
def Clean (X : ReadEnv) (fold : Bool) : Comment → Prop
  | line _ => True
  | block cs => trailingPipes cs % 2 = 0
  | datum cs => ReadsAsDatum X fold cs fold

/-- A comment that needs white space behind it. -/
def IsDatum : Comment → Prop
  | datum _ => True
  | _ => False

end Comment

/-! ### The loops that skip comments -/

section Loops

variable {p q : Port} {cs t : List Char}

theorem takes_skipUntil {c : Char} {orEof : Bool} (hcs : c ∉ cs) (hp : p.At (cs ++ c :: t)) :
    Takes (skipUntil c.toNat orEof) p () t := by
  -- one round, given what the others do
  have hround : ∀ {p : Port} {d : Char} {ds : List Char}, p.At (d :: ds) →
      (d ≠ c → ∀ q : Port, q.At ds → Takes (skipUntil c.toNat orEof) q () t) →
        (d = c → ds = t) → Takes (skipUntil c.toNat orEof) p () t := by
    intro p d ds hp hmore hend
    have hnext : ∀ q : Port, q.At ds → Takes (fun n =>
        if (d.toNat : ℤ) = c.toNat ∨ (d.toNat : ℤ) = eofValue then (pure () : ReadM Unit)
        else skipUntil c.toNat orEof n) q () t := by
      intro q hq
      by_cases hd : d = c
      · obtain rfl := hend hd
        simp only [hd, true_or, if_true]
        exact Takes.ret hq ()
      · have hne : ¬ (d.toNat : ℤ) = c.toNat := fun heq =>
          hd (Char.toNat_inj.mp (by exact_mod_cast heq))
        simp only [hne, code_ne_eofValue d, or_self, if_false]
        exact hmore hd q hq
    refine Takes.succ ?_
    simp only [skipUntil]
    cases orEof with
    | false =>
      simp only [Bool.false_eq_true, if_false]
      exact (takes_ireadChar hp).bind fun q hq _ => hnext q hq
    | true =>
      simp only [if_true]
      exact (takes_readChar hp).bind fun q hq _ => hnext q hq
  induction cs generalizing p with
  | nil => exact hround hp (fun hne => absurd rfl hne) fun _ => rfl
  | cons d cs ih =>
    have hne : d ≠ c := fun heq => hcs (heq ▸ List.mem_cons_self)
    have hcs' : c ∉ cs := fun hmem => hcs (List.mem_cons_of_mem _ hmem)
    exact hround hp (fun _ q hq => ih hcs' hq) fun heq => absurd heq hne

/-- A loop that must not meet the end raises an error there. -/
theorem raises_skipUntil {c : Char} (hcs : c ∉ cs) (hp : p.At cs) :
    Raises (skipUntil c.toNat false) p := by
  induction cs generalizing p with
  | nil =>
    refine Raises.succ ?_
    simp only [skipUntil, Bool.false_eq_true, if_false]
    exact (raises_ireadChar hp).bind
  | cons d cs ih =>
    rw [List.mem_cons, not_or] at hcs
    have hne : ¬ (d.toNat : ℤ) = c.toNat := fun heq =>
      hcs.1 (Char.toNat_inj.mp (by exact_mod_cast heq)).symm
    refine Raises.succ ?_
    simp only [skipUntil, Bool.false_eq_true, if_false]
    refine (takes_ireadChar hp).raises fun q hq _ => ?_
    simp only [hne, code_ne_eofValue d, or_self, if_false]
    exact ih hcs.2 hq

theorem trailingPipes_of_not_mem (hcs : '|' ∉ cs) : trailingPipes cs = 0 := by
  rw [trailingPipes, List.length_eq_zero_iff, List.rtakeWhile_eq_nil_iff]
  intro hne hlast
  rw [decide_eq_true_eq] at hlast
  exact hcs (hlast ▸ List.getLast_mem hne)

theorem trailingPipes_concat : trailingPipes (cs ++ ['|']) = trailingPipes cs + 1 := by
  rw [trailingPipes, List.rtakeWhile_concat_pos _ _ _ (by decide), List.length_append]
  rfl

theorem trailingPipes_concat_of_ne {c : Char} (hc : c ≠ '|') : trailingPipes (cs ++ [c]) = 0 := by
  rw [trailingPipes, List.rtakeWhile_concat_neg _ _ _ (by simpa using hc)]
  rfl

/-- A pipe and the character behind it do not matter. -/
theorem trailingPipes_pair {a ds : List Char} {c : Char} (ha : '|' ∉ a) :
    trailingPipes (a ++ '|' :: c :: ds) % 2 = trailingPipes ds % 2 := by
  induction ds using List.reverseRecOn with
  | nil =>
    have hpair : a ++ ['|', c] = (a ++ ['|']) ++ [c] := by simp
    rw [hpair]
    by_cases hc : c = '|'
    · rw [hc, trailingPipes_concat, trailingPipes_concat, trailingPipes_of_not_mem ha]
      rfl
    · rw [trailingPipes_concat_of_ne hc]
      rfl
  | append_singleton ds d ih =>
    have hconcat : a ++ '|' :: c :: (ds ++ [d]) = (a ++ '|' :: c :: ds) ++ [d] := by simp
    rw [hconcat]
    by_cases hd : d = '|'
    · rw [hd, trailingPipes_concat, trailingPipes_concat]
      omega
    · rw [trailingPipes_concat_of_ne hd, trailingPipes_concat_of_ne hd]

/-- The text of a block comment, up to the first pipe and the character behind it. -/
theorem blockText_cases (hcs : ¬ ['|', '#'] <:+: cs) :
    '|' ∉ cs ∨ (∃ a, '|' ∉ a ∧ cs = a ++ ['|']) ∨
      ∃ a c ds, '|' ∉ a ∧ cs = a ++ '|' :: c :: ds ∧ c ≠ '#' ∧ ¬ ['|', '#'] <:+: ds := by
  by_cases hmem : '|' ∈ cs
  · obtain ⟨a, b, rfl, ha⟩ := List.eq_append_cons_of_mem hmem
    rcases b with - | ⟨c, ds⟩
    · exact Or.inr (Or.inl ⟨a, ha, rfl⟩)
    · refine Or.inr (Or.inr ⟨a, c, ds, ha, rfl, ?_, fun hinfix => hcs ?_⟩)
      · rintro rfl
        exact hcs ⟨a, ds, by simp⟩
      · exact hinfix.trans ⟨a ++ ['|', c], [], by simp⟩
  · exact Or.inl hmem

/-- A round of the loop at a pipe. -/
theorem takes_blockComment_round {a ds es : List Char} {c : Char} (ha : '|' ∉ a)
    (hp : p.At (a ++ '|' :: c :: ds))
    (hrest : ∀ q : Port, q.At ds →
      Takes (fun n => if (c.toNat : ℤ) = ascii '#' then (pure () : ReadM Unit) else blockComment n)
        q () es) : Takes blockComment p () es := by
  refine Takes.succ ?_
  simp only [blockComment]
  exact (takes_skipUntil ha hp).bind fun q hq _ =>
    (takes_ireadChar hq).bind fun q' hq' _ => hrest q' hq'

/-- **The end of a block comment** is met behind a text whose pipes pair up. -/
theorem takes_blockComment (hcs : ¬ ['|', '#'] <:+: cs) (heven : trailingPipes cs % 2 = 0)
    (hp : p.At (cs ++ '|' :: '#' :: t)) : Takes blockComment p () t := by
  induction hlen : cs.length using Nat.strong_induction_on generalizing cs p with
  | _ n ih =>
    rcases blockText_cases hcs with hno | ⟨a, ha, rfl⟩ | ⟨a, c, ds, ha, rfl, hc, hds⟩
    · exact takes_blockComment_round hno hp fun q hq => Takes.ret hq ()
    · rw [trailingPipes_concat, trailingPipes_of_not_mem ha] at heven
      cases heven
    · rw [trailingPipes_pair ha] at heven
      rw [List.append_assoc] at hp
      refine takes_blockComment_round ha hp fun q hq => ?_
      have hne : ¬ (c.toNat : ℤ) = ascii '#' := fun heq =>
        hc (Char.toNat_inj.mp (by exact_mod_cast heq))
      simp only [if_neg hne]
      refine ih ds.length ?_ hds heven hq rfl
      rw [← hlen, List.length_append, List.length_cons, List.length_cons]
      omega

/-- The loop takes two characters at least. -/
theorem halts_blockComment_fewer {c : Char} (hp : p.Has (c :: t)) :
    Halts blockComment p fun _ q => q.LeavesFewer t := by
  refine Ends.succ ?_
  simp only [blockComment]
  refine (halts_skipUntil (ascii '|') false hp).bind ?_
  rintro - q ⟨ds, hds, hsuf⟩
  refine (halts_ireadChar hds).bind ?_
  rintro v q' ⟨d, es, rfl, rfl, hq'⟩
  refine Ends.ite (fun _ => Ends.ret (hq'.leaves.fewer.trans hsuf)) fun _ => ?_
  exact (halts_blockComment hq').imp fun _ _ hl => hl.fewer.trans hsuf

/-- It is missed otherwise. -/
theorem blockComment_fewer (hcs : ¬ ['|', '#'] <:+: cs) (hodd : trailingPipes cs % 2 = 1)
    (hp : p.At (cs ++ '|' :: '#' :: t)) (h : Converges blockComment p (.ok ((), q))) :
    q.LeavesFewer t := by
  -- what the loop does behind a pipe and a character that is no sharp sign
  have hround : ∀ {p : Port} {a ds : List Char} {c : Char}, '|' ∉ a → c ≠ '#' →
      p.At (a ++ '|' :: c :: ds) → Converges blockComment p (.ok ((), q)) →
        ∃ p', p'.At ds ∧ Converges blockComment p' (.ok ((), q)) := by
    intro p a ds c ha hc hp h
    have hne : ¬ (c.toNat : ℤ) = ascii '#' := fun heq =>
      hc (Char.toNat_inj.mp (by exact_mod_cast heq))
    have hloop : ∀ n (d : ℤ), Local n fun n =>
        if d = ascii '#' then (pure () : ReadM Unit) else blockComment n :=
      fun n d => Local.ite (Local.pure ()) delimits_blockComment.toLocal
    have hskip : Takes (skipUntil (ascii '|') false) p () (c :: ds) := takes_skipUntil ha hp
    obtain ⟨p₁, h₁, hp₁, -⟩ := hskip
    obtain ⟨p₂, h₂, hp₂, -⟩ := takes_ireadChar hp₁
    have hsucc := h.of_succ
    simp only [blockComment] at hsucc
    have hrest := converges_of_bind (fun n => (delimits_skipUntil _ _).toLocal)
      (fun n _ => delimits_ireadChar.toLocal.bind (hloop n)) hsucc h₁
    have hlast := converges_of_bind (fun n => delimits_ireadChar.toLocal) hloop hrest h₂
    simp only [if_neg hne] at hlast
    exact ⟨p₂, hp₂, hlast⟩
  induction hlen : cs.length using Nat.strong_induction_on generalizing cs p with
  | _ n ih =>
    rcases blockText_cases hcs with hno | ⟨a, ha, rfl⟩ | ⟨a, c, ds, ha, rfl, hc, hds⟩
    · rw [trailingPipes_of_not_mem hno] at hodd
      cases hodd
    · -- the pipe of the end is taken for the character behind the last one
      rw [List.append_assoc] at hp
      obtain ⟨p', hp', h'⟩ := hround ha (by decide) hp h
      exact (halts_blockComment_fewer hp'.has).meets h'
    · rw [trailingPipes_pair ha] at hodd
      rw [List.append_assoc] at hp
      obtain ⟨p', hp', h'⟩ := hround ha hc hp h
      refine ih ds.length ?_ hds hodd hp' h' rfl
      rw [← hlen, List.length_append, List.length_cons, List.length_cons]
      omega

end Loops

/-! ### Where a comment is met -/

section Heads

variable {X : ReadEnv} {p q r : Port} {c : Char} {cs ds es t : List Char} {fold : Bool}

theorem takes_readHead_sharp (h : p.At cs) (hcs : dropSpaces cs = '#' :: ds) :
    Takes readHead p .sharp ds := by
  have hpeek := takes_peekFirstChar h
  rw [hcs] at hpeek
  exact hpeek.bind fun p' hp' _ => (takes_readChar hp').bind fun q hq _ => Takes.ret hq _

/-- `consume_line` takes a line comment. -/
theorem takes_consumeLine (hline : newlineChar ∉ cs) (h : p.At (';' :: (cs ++ newlineChar :: t))) :
    Takes consumeLine p () t := by
  have hno : newlineChar ∉ ';' :: cs := by
    rw [List.mem_cons, not_or]
    exact ⟨by decide, hline⟩
  exact takes_skipUntil hno h

theorem takes_readHead_semicolon (hline : newlineChar ∉ ds) (h : p.At cs)
    (hcs : dropSpaces cs = ';' :: (ds ++ newlineChar :: t)) : Takes readHead p .again t := by
  have hpeek := takes_peekFirstChar h
  rw [hcs] at hpeek
  exact hpeek.bind fun p' hp' _ =>
    (takes_consumeLine hline hp').bind fun q hq _ => Takes.ret hq _

/-- A round of `read_list`, given its action. -/
theorem takes_listHead {a : ListAction} {next : ListNext} (h : p.At cs)
    (hcs : dropSpaces cs = c :: ds) (ha : listAction (toChar c.toNat) = a)
    (hrun : ∀ q : Port, q.At (c :: ds) → Takes (fun n => a.run n) q next es) :
    Takes listHead p next es := by
  rw [funext listHead_eq]
  refine (takes_ipeekFirstChar h hcs).bind fun q hq _ => ?_
  rw [ha]
  exact hrun q hq

theorem takes_listHead_sharp (h : p.At cs) (hcs : dropSpaces cs = '#' :: ds) :
    Takes listHead p .sharp ds :=
  takes_listHead h hcs (a := .sharp) (by decide) fun q hq =>
    (takes_readChar hq).bind fun q' hq' _ => Takes.ret hq' _

theorem takes_listHead_semicolon (hline : newlineChar ∉ ds) (h : p.At cs)
    (hcs : dropSpaces cs = ';' :: (ds ++ newlineChar :: t)) : Takes listHead p .skip t :=
  takes_listHead h hcs (a := .comment) (by decide) fun q hq =>
    (takes_consumeLine hline hq).bind fun q' hq' _ => Takes.ret hq' _

/-- Behind the last element of a list, there is no comment. -/
theorem raises_listEnd {elms : List Datum} {last : Datum} (h : p.At cs)
    (hcs : dropSpaces cs = c :: ds) (hc : toChar c.toNat ≠ ascii ')') :
    Raises (listEnd elms last) p := by
  have hpeek := takes_peekFirstChar h
  rw [hcs] at hpeek
  refine hpeek.raises fun q hq _ => ?_
  rw [frontCode_cons]
  simp only [if_neg hc]
  exact Raises.throw (e := naviReadError _ _) trivial q

/-! ### `read_sharp` at a comment -/

/-- Behind `#|`, the loop is entered. -/
theorem readSharp_block {n : ℕ} {q : Port} (h : ireadChar p = .ok (('|').toNat, q)) :
    readSharp X (n + 1) p = (blockComment n >>= fun _ => pure Datum.void) q := by
  have hc : toChar ('|').toNat = 124 := by decide
  rw [readSharp, readM_bind h]
  simp only [hc]
  rfl

/-- Behind `#;`, a datum is read. -/
theorem readSharp_datum {n : ℕ} {q : Port} (h : ireadChar p = .ok ((';').toNat, q)) :
    readSharp X (n + 1) p = (naviRead X n >>= fun _ => pure Datum.void) q := by
  have hc : toChar (';').toNat = 59 := by decide
  rw [readSharp, readM_bind h]
  simp only [hc]
  rfl

theorem converges_congr {α : Type} {f g : ℕ → ReadM α} {res : Except ReadExn (α × Port)}
    (h : ∀ n, f n p = g n q) : Converges f p res ↔ Converges g q res := by
  unfold Converges
  simp only [h]

/-- What `read_sharp` does with a block comment. -/
theorem converges_readSharp_block (hp : p.Stands ('|' :: ds) fold) :
    ∃ q, q.Stands ds fold ∧ ∀ res, Converges (readSharp X) p res ↔
      Converges (fun n => blockComment n >>= fun _ => pure Datum.void) q res := by
  obtain ⟨q, ⟨N, hN⟩, hq, hfold⟩ := takes_ireadChar hp.toAt
  refine ⟨q, ⟨hq, hfold.trans hp.folds⟩, fun res => ?_⟩
  rw [← converges_congr fun n => readSharp_block (X := X) (n := n) (hN N le_rfl)]
  exact ⟨Converges.of_succ, Converges.succ⟩

/-- What it does with a datum comment. -/
theorem converges_readSharp_datum (hp : p.Stands (';' :: ds) fold) :
    ∃ q, q.Stands ds fold ∧ ∀ res, Converges (readSharp X) p res ↔
      Converges (fun n => naviRead X n >>= fun _ => pure Datum.void) q res := by
  obtain ⟨q, ⟨N, hN⟩, hq, hfold⟩ := takes_ireadChar hp.toAt
  refine ⟨q, ⟨hq, hfold.trans hp.folds⟩, fun res => ?_⟩
  rw [← converges_congr fun n => readSharp_datum (X := X) (n := n) (hN N le_rfl)]
  exact ⟨Converges.of_succ, Converges.succ⟩

end Heads

/-! ### Going on behind a comment -/

section Resuming

variable {X : ReadEnv} {p q r : Port} {g : Gap} {c : Comment} {cs ds es t ws : List Char}
  {fold fold' : Bool}

/-- A comment is skipped, and the reader goes on at the same gap. -/
inductive Resumes (X : ReadEnv) : Gap → Port → Port → Prop
  | readLine {q r : Port} (h : Converges readHead q (.ok (.again, r))) : Resumes X .read q r
  | readSharp {q q' r : Port} {d : Datum} (h : Converges readHead q (.ok (.sharp, q')))
    (hd : Converges (readSharp X) q' (.ok (d, r))) (hvoid : d.isVoid = true) : Resumes X .read q r
  | listLine {q r : Port} {elms : List Datum} (h : Converges listHead q (.ok (.skip, r))) :
    Resumes X (.list elms) q r
  | listSharp {q q' r : Port} {elms : List Datum} {d : Datum}
    (h : Converges listHead q (.ok (.sharp, q'))) (hd : Converges (readSharp X) q' (.ok (d, r)))
    (hvoid : d.isVoid = true) : Resumes X (.list elms) q r

/-- What is read at the gap is what is read behind the comment. -/
theorem Resumes.gives (h : Resumes X g q r) {d : Datum} (hr : Gives (g.run X) r d es fold) :
    Gives (g.run X) q d es fold := by
  have hframes : Frames (g.run X) q (g.run X) r fun d _ => pure d := by
    cases h with
    | readLine h => exact frames_naviRead h (Frames.tail r)
    | readSharp h hd hvoid => exact frames_again h hd hvoid
    | listLine h => exact frames_readList h (Frames.tail r)
    | @listSharp q q' r elms d h hd hvoid =>
      have hlist : Frames _ q (fun n => readList X n (if d.isVoid then elms else elms ++ [d])) r _ :=
        frames_listSharp h hd
      rwa [if_pos hvoid] at hlist
  obtain ⟨s, hs, hat⟩ := hr
  exact ⟨s, (hframes _).mpr ⟨d, s, hs, Converges.const rfl⟩, hat⟩

theorem Takes.gives {α : Type} {f : ℕ → ReadM α} {v : α} (h : Takes f p v ds)
    (hp : p.Stands cs fold) : Gives f p v ds fold := by
  obtain ⟨q, hq, hat, hfold⟩ := h
  exact ⟨q, hq, hat, hfold.trans hp.folds⟩

/-- A comment behind a sharp sign is skipped if `read_sharp` skips it. -/
theorem resumes_sharp (hg : ∀ elms last, g ≠ .close elms last) (hq : q.Stands cs fold)
    (hcs : dropSpaces cs = '#' :: ds)
    (hsharp : ∀ q' : Port, q'.Stands ds fold → Gives (readSharp X) q' .void es fold) :
    ∃ r, Resumes X g q r ∧ r.Stands es fold := by
  cases g with
  | read =>
    obtain ⟨q', h, hq'⟩ := (takes_readHead_sharp hq.toAt hcs).gives hq
    obtain ⟨r, hd, hr⟩ := hsharp q' hq'
    exact ⟨r, .readSharp h hd rfl, hr⟩
  | list elms =>
    obtain ⟨q', h, hq'⟩ := (takes_listHead_sharp hq.toAt hcs).gives hq
    obtain ⟨r, hd, hr⟩ := hsharp q' hq'
    exact ⟨r, .listSharp h hd rfl, hr⟩
  | close elms last => exact absurd rfl (hg elms last)

/-- If it is skipped, `read_sharp` has skipped it. -/
theorem Resumes.exists_sharp (h : Resumes X g q r) (hq : q.Stands cs fold)
    (hcs : dropSpaces cs = '#' :: ds) :
    ∃ q' d, q'.Stands ds fold ∧ Converges (NaviScheme.readSharp X) q' (.ok (d, r)) := by
  obtain ⟨q₁, h₁, hq₁⟩ := (takes_readHead_sharp hq.toAt hcs).gives hq
  obtain ⟨q₂, h₂, hq₂⟩ := (takes_listHead_sharp hq.toAt hcs).gives hq
  cases h with
  | readLine h => cases h.unique h₁
  | readSharp h hd _ =>
    cases h.unique h₁
    exact ⟨_, _, hq₁, hd⟩
  | listLine h => cases h.unique h₂
  | listSharp h hd _ =>
    cases h.unique h₂
    exact ⟨_, _, hq₂, hd⟩

/-- The characters of a comment begin with no space. -/
theorem Comment.dropSpaces_text (c : Comment) (es : List Char) (hws : ∀ w ∈ ws, isspace w.toNat = true) :
    dropSpaces (ws ++ (c.text ++ es)) = c.text ++ es := by
  have htext : dropSpaces (c.text ++ es) = c.text ++ es := by
    cases c with
    | line cs => exact dropSpaces_cons_of_neg (by decide)
    | block cs => exact dropSpaces_cons_of_neg (by decide)
    | datum cs => exact dropSpaces_cons_of_neg (by decide)
  rw [dropSpaces, List.dropWhile_append_of_pos hws]
  exact htext

/-- A comment whose end is met, and that changes nothing, is skipped. -/
theorem Comment.resumes (hc : c.Valid X fold) (hclean : c.Clean X fold)
    (hg : ∀ elms last, g ≠ .close elms last) (hws : ∀ w ∈ ws, isspace w.toNat = true)
    (hes : c.IsDatum → ∃ w vs, es = w :: vs ∧ isspace w.toNat = true)
    (hq : q.Stands (ws ++ (c.text ++ es)) fold) : ∃ r, Resumes X g q r ∧ r.Stands es fold := by
  have hdrop := c.dropSpaces_text es hws
  cases c with
  | line cs =>
    have htext : (Comment.line cs).text ++ es = ';' :: (cs ++ newlineChar :: es) := by
      simp [Comment.text]
    rw [htext] at hdrop
    cases g with
    | read =>
      obtain ⟨r, h, hr⟩ := (takes_readHead_semicolon hc hq.toAt (by rwa [htext])).gives hq
      exact ⟨r, .readLine h, hr⟩
    | list elms =>
      obtain ⟨r, h, hr⟩ := (takes_listHead_semicolon hc hq.toAt (by rwa [htext])).gives hq
      exact ⟨r, .listLine h, hr⟩
    | close elms last => exact absurd rfl (hg elms last)
  | block cs =>
    have htext : (Comment.block cs).text ++ es = '#' :: '|' :: (cs ++ '|' :: '#' :: es) := by
      simp [Comment.text]
    refine resumes_sharp hg hq (hdrop.trans htext) fun q' hq' => ?_
    obtain ⟨q'', hq'', hiff⟩ := converges_readSharp_block (X := X) hq'
    obtain ⟨r, hr, hat⟩ := (takes_blockComment hc.1 hclean hq''.toAt).gives hq''
    exact ⟨r, (hiff _).mpr (hr.bind (Converges.const rfl)), hat⟩
  | datum cs =>
    refine resumes_sharp hg hq hdrop fun q' hq' => ?_
    obtain ⟨q'', hq'', hiff⟩ := converges_readSharp_datum (X := X) hq'
    obtain ⟨w, vs, rfl, hw⟩ := hes trivial
    obtain ⟨p₀, d, w₀, t₀, hw₀, hp₀, s₀, hs₀, hat₀⟩ := hclean
    obtain ⟨r, hr, hat⟩ := Delimits.transfer (y := []) (fun _ => delimits_run (X := X) .read)
      (List.cons_ne_nil w₀ t₀) hw hp₀ hq'' hs₀ hat₀
    exact ⟨r, (hiff _).mpr (hr.bind (Converges.const rfl)), hat⟩

/-- A comment that is skipped has its end met, and changes nothing. -/
theorem Resumes.clean (h : Resumes X g q r) (hc : c.Valid X fold)
    (hws : ∀ w ∈ ws, isspace w.toNat = true)
    (hes : c.IsDatum → ∃ w vs, es = w :: vs ∧ isspace w.toNat = true)
    (hq : q.Stands (ws ++ (c.text ++ es)) fold) (hr : r.Stands es fold) : c.Clean X fold := by
  have hdrop := c.dropSpaces_text es hws
  cases c with
  | line cs => trivial
  | block cs =>
    have htext : (Comment.block cs).text ++ es = '#' :: '|' :: (cs ++ '|' :: '#' :: es) := by
      simp [Comment.text]
    obtain ⟨q', d, hq', hd⟩ := h.exists_sharp hq (hdrop.trans htext)
    obtain ⟨q'', hq'', hiff⟩ := converges_readSharp_block (X := X) hq'
    obtain ⟨u, r', hloop, hret⟩ := exists_converges_bind (fun _ => delimits_blockComment.toLocal)
      (fun _ _ => Local.pure _) ((hiff _).mp hd)
    cases hret.unique (Converges.const rfl)
    rcases Nat.mod_two_eq_zero_or_one (trailingPipes cs) with heven | hodd
    · exact heven
    · exact absurd hr.toAt (blockComment_fewer hc.1 hodd hq''.toAt hloop).not_at
  | datum cs =>
    obtain ⟨q', d, hq', hd⟩ := h.exists_sharp hq hdrop
    obtain ⟨q'', hq'', hiff⟩ := converges_readSharp_datum (X := X) hq'
    obtain ⟨d', r', hread, hret⟩ := exists_converges_bind (Call.local_run .read)
      (fun _ _ => Local.pure _) ((hiff _).mp hd)
    cases hret.unique (Converges.const rfl)
    obtain ⟨w, vs, rfl, hw⟩ := hes trivial
    exact ⟨q'', d', w, vs, hw, hq'', r, hread, hr⟩

/-! ### White space in front of a token -/

/-- Of the characters at a gap, the spaces in front play no role. -/
theorem gives_of_dropSpaces {α : Type} {k : ℤ → ℕ → ReadM α} {p' : Port} {ds : List Char} {v : α}
    (hk : ∀ n c, Local n (k c)) (hp : p.Stands cs fold) (hp' : p'.Stands ds fold)
    (hdrop : dropSpaces ds = dropSpaces cs)
    (h : Gives (fun n => peekFirstChar n >>= fun c => k c n) p v es fold') :
    Gives (fun n => peekFirstChar n >>= fun c => k c n) p' v es fold' := by
  obtain ⟨s, hs, hat⟩ := h
  obtain ⟨q, hq, hqat⟩ := (takes_peekFirstChar hp.toAt).gives hp
  have hpeek := takes_peekFirstChar hp'.toAt
  rw [hdrop] at hpeek
  obtain ⟨q', hq', hqat'⟩ := hpeek.gives hp'
  have hrest := converges_of_bind (fun _ => local_peekFirstChar) (fun n c => hk n c) hs hq
  obtain ⟨s', hs', hat'⟩ := Local.agree (fun n => hk n _) hqat hqat' ⟨s, hrest, hat⟩
  exact ⟨s', hq'.bind hs', hat'⟩

theorem Gives.succ {α : Type} {f : ℕ → ReadM α} {v : α}
    (h : Gives (fun n => f (n + 1)) p v es fold) : Gives f p v es fold := by
  obtain ⟨s, hs, hat⟩ := h
  exact ⟨s, hs.succ, hat⟩

theorem Gives.of_succ {α : Type} {f : ℕ → ReadM α} {v : α} (h : Gives f p v es fold) :
    Gives (fun n => f (n + 1)) p v es fold := by
  obtain ⟨s, hs, hat⟩ := h
  exact ⟨s, hs.of_succ, hat⟩

/-- What is read at a gap does not depend on the white space there. -/
theorem Gap.gives_of_dropSpaces {p' : Port} {ds : List Char} {d : Datum} (hp : p.Stands cs fold)
    (hp' : p'.Stands ds fold) (hdrop : dropSpaces ds = dropSpaces cs)
    (h : Gives (g.run X) p d es fold') : Gives (g.run X) p' d es fold' := by
  have hread : ∀ n next, Local n fun n => readNext X n next :=
    fun n next => (delimits_readNext (fun c => delimits_run c) next).toLocal
  have hlist : ∀ elms n next, Local n fun n => listNext X n elms next :=
    fun elms n next => (delimits_listNext (fun c => delimits_run c) elms next).toLocal
  cases g with
  | read =>
    obtain ⟨k, hk, hdelim⟩ := exists_readHead
    have hrun : ∀ n, naviRead X (n + 1) = peekFirstChar n >>= fun c => k c n >>= readNext X n := by
      intro n
      rw [naviRead_succ, hk, bind_assoc]
    refine Gives.succ ?_
    have hsucc := Gives.of_succ h
    change Gives (fun n => naviRead X (n + 1)) _ _ _ _ at hsucc ⊢
    simp only [hrun] at hsucc ⊢
    exact NaviScheme.gives_of_dropSpaces
      (fun n c => (hdelim n c).toLocal.bind fun next => hread n next) hp hp' hdrop hsucc
  | list elms =>
    have hrun : ∀ n, readList X (n + 1) elms = peekFirstChar n >>= fun c =>
        (if c = eofValue then throw unexpectedEof else pure c) >>= fun c =>
          (listAction (toChar c)).run n >>= listNext X n elms := by
      intro n
      rw [readList_succ, listHead_eq, ipeekFirstChar, bind_assoc, bind_assoc]
    refine Gives.succ ?_
    have hsucc := Gives.of_succ h
    change Gives (fun n => readList X (n + 1) elms) _ _ _ _ at hsucc ⊢
    simp only [hrun] at hsucc ⊢
    refine NaviScheme.gives_of_dropSpaces (fun n c => ?_) hp hp' hdrop hsucc
    refine Local.bind (Local.ite (Local.throw _) (Local.pure _)) fun c => ?_
    exact (ListAction.delimits_run _).toLocal.bind fun next => hlist elms n next
  | close elms last =>
    refine NaviScheme.gives_of_dropSpaces (fun n c => ?_) hp hp' hdrop h
    exact Local.ite (delimits_readChar.toLocal.bind fun _ => Local.pure _) (Local.throw _)

end Resuming

/-! ### Comments are neutral -/

/-- Characters that read as a datum, some of them white space between two tokens: the reader comes
to a gap there, and another token is behind it. -/
structure Between (X : ReadEnv) (p : Port) (u ws t : List Char) (fold : Bool) (g : Gap)
    (b : Bool) : Prop where
  stands : p.Stands (u ++ (ws ++ t)) fold
  passes : ∃ r, Passes X .read p g r ∧ r.Stands (ws ++ t) b
  space : ∀ w ∈ ws, isspace w.toNat = true
  token : dropSpaces t ≠ []

/-- Where a comment has been put, the reader comes to the gap in front of it, skips it and goes on
at the same gap with the characters behind it; and in the end it returns the datum. -/
structure Neutral (X : ReadEnv) (p : Port) (g : Gap) (cs es : List Char) (b : Bool) (d : Datum)
    (rest : List Char) (fold : Bool) : Prop where
  skips : ∃ q r, Passes X .read p g q ∧ q.Stands cs b ∧ Resumes X g q r ∧ r.Stands es b
  gives : Gives (naviRead X) p d rest fold

section Neutral

variable {X : ReadEnv} {p p' : Port} {g : Gap} {u ws ws₁ ws₂ t rest : List Char} {c : Comment}
  {d : Datum} {fold fold' b : Bool}

theorem dropSpaces_append (hws : ∀ w ∈ ws, isspace w.toNat = true) :
    dropSpaces (ws ++ t) = dropSpaces t :=
  List.dropWhile_append_of_pos hws

theorem Gives.not_raises {α : Type} {f : ℕ → ReadM α} {v : α} {es : List Char}
    (h : Gives f p v es fold) : ¬ Raises f p := by
  rintro ⟨e, he, -⟩
  obtain ⟨q, hq, -⟩ := h
  cases hq.unique he

/-- Where the closing parenthesis is looked for and a comment is found, nothing is returned. -/
theorem not_gives_close {elms : List Datum} {last : Datum} {q : Port} {cs es : List Char}
    (hpass : Passes X .read p (.close elms last) q) (hp : p.At cs)
    (hq : q.Stands (ws ++ (c.text ++ es)) b) (hws : ∀ w ∈ ws, isspace w.toNat = true) :
    ¬ Gives (naviRead X) p d rest fold := by
  rintro ⟨s, hs, -⟩
  obtain ⟨d', rest', fold'', hclose⟩ := hpass.exists_gives hp hs
  have hdrop := c.dropSpaces_text es hws
  refine hclose.not_raises ?_
  cases c with
  | line cs => exact raises_listEnd hq.toAt hdrop (by decide)
  | block cs => exact raises_listEnd hq.toAt hdrop (by decide)
  | datum cs => exact raises_listEnd hq.toAt hdrop (by decide)

/-- A port on a string, and what is in its buffer. -/
def stringPort (bs : List UInt8) (buffer : ℤ) (full : Bool) : Port :=
  ⟨.string, bs, buffer, false, full, false, false⟩

/-- The apostrophe. -/
def apostrophe : Char := Char.ofNat 0x27

theorem converges_naviRead {q : Port} {n : ℕ} {next : ReadNext}
    {res : Except ReadExn (Datum × Port)} (h : readHead n p = .ok (next, q))
    (hnext : Converges (fun n => readNext X n next) q res) : Converges (naviRead X) p res := by
  refine Converges.succ ?_
  simp only [naviRead_succ]
  exact (Local.converges (fun _ => local_readHead) h).bind hnext

theorem converges_readList {q : Port} {n : ℕ} {elms : List Datum} {next : ListNext}
    {res : Except ReadExn (Datum × Port)} (h : listHead n p = .ok (next, q))
    (hnext : Converges (fun n => listNext X n elms next) q res) :
    Converges (fun n => readList X n elms) p res := by
  refine Converges.succ ?_
  simp only [readList_succ]
  exact (Local.converges (fun _ => local_listHead) h).bind hnext

/-- Between the apostrophe and a symbol. -/
theorem between_quote : Between allDefined (Port.openOn .string (Utf8.encode
    ([apostrophe] ++ ([] ++ ['a'])))) [apostrophe] [] ['a'] false .read false := by
  have hhead : readHead 5 (Port.openOn .string (Utf8.encode ([apostrophe] ++ ([] ++ ['a'])))) =
      .ok (.wrap "quote", stringPort [0x61] 0x27 false) := rfl
  refine ⟨⟨Port.openOn_at _ _, rfl⟩, ⟨stringPort [0x61] 0x27 false, ?_, ?_⟩, by simp, by decide⟩
  · exact .inside (.read (Local.converges (fun _ => local_readHead) hhead) rfl) .read
  · exact ⟨⟨rfl, .empty rfl rfl rfl⟩, rfl⟩

theorem gives_quote : Gives (naviRead allDefined) (Port.openOn .string (Utf8.encode
    ([apostrophe] ++ ([] ++ ['a'])))) (naviSymWrap "quote" (.symbol [0x61])) [] false := by
  have hhead : readHead 5 (Port.openOn .string (Utf8.encode ([apostrophe] ++ ([] ++ ['a'])))) =
      .ok (.wrap "quote", stringPort [0x61] 0x27 false) := rfl
  have hsymbol : readHead 5 (stringPort [0x61] 0x27 false) =
      .ok (.done (.symbol [0x61]), ⟨.string, [], -1, true, true, false, false⟩) := rfl
  have hdatum : Converges (naviRead allDefined) (stringPort [0x61] 0x27 false)
      (.ok (.symbol [0x61], ⟨.string, [], -1, true, true, false, false⟩)) :=
    converges_naviRead hsymbol (Converges.const rfl)
  exact ⟨_, converges_naviRead hhead (hdatum.bind (Converges.const rfl)),
    ⟨rfl, .done rfl⟩, rfl⟩

set_option maxRecDepth 4000 in
/-- Behind the last element of a list. -/
theorem between_last : Between allDefined
      (Port.openOn .string (Utf8.encode (['(', 'a', ' ', '.', ' ', 'b'] ++ ([] ++ [')']))))
      ['(', 'a', ' ', '.', ' ', 'b'] [] [')'] false (.close [.symbol [0x61]] (.symbol [0x62])) false ∧
    Gives (naviRead allDefined)
      (Port.openOn .string (Utf8.encode (['(', 'a', ' ', '.', ' ', 'b'] ++ ([] ++ [')']))))
      (Datum.listTail [.symbol [0x61]] (.symbol [0x62])) [] false := by
  have hlist : readHead 5 (Port.openOn .string
      (Utf8.encode (['(', 'a', ' ', '.', ' ', 'b'] ++ ([] ++ [')'])))) =
        .ok (.list, stringPort [0x61, 0x20, 0x2E, 0x20, 0x62, 0x29] 0x28 false) := rfl
  have helement : listHead 5 (stringPort [0x61, 0x20, 0x2E, 0x20, 0x62, 0x29] 0x28 false) =
      .ok (.element, stringPort [0x20, 0x2E, 0x20, 0x62, 0x29] 0x61 true) := rfl
  have hfirst : readHead 5 (stringPort [0x20, 0x2E, 0x20, 0x62, 0x29] 0x61 true) =
      .ok (.done (.symbol [0x61]), stringPort [0x2E, 0x20, 0x62, 0x29] 0x20 true) := rfl
  have hdot : listHead 5 (stringPort [0x2E, 0x20, 0x62, 0x29] 0x20 true) =
      .ok (.last, stringPort [0x62, 0x29] 0x20 true) := rfl
  have hlast : readHead 5 (stringPort [0x62, 0x29] 0x20 true) =
      .ok (.done (.symbol [0x62]), stringPort [] 0x29 true) := rfl
  have hend : ∀ n, listEnd [.symbol [0x61]] (.symbol [0x62]) (n + 1) (stringPort [] 0x29 true) =
      .ok (Datum.listTail [.symbol [0x61]] (.symbol [0x62]), stringPort [] 0x29 false) :=
    fun _ => rfl
  have ha : Converges (naviRead allDefined) (stringPort [0x20, 0x2E, 0x20, 0x62, 0x29] 0x61 true)
      (.ok (.symbol [0x61], stringPort [0x2E, 0x20, 0x62, 0x29] 0x20 true)) :=
    converges_naviRead hfirst (Converges.const rfl)
  have hb : Converges (naviRead allDefined) (stringPort [0x62, 0x29] 0x20 true)
      (.ok (.symbol [0x62], stringPort [] 0x29 true)) :=
    converges_naviRead hlast (Converges.const rfl)
  have hclose : Converges (listEnd [.symbol [0x61]] (.symbol [0x62])) (stringPort [] 0x29 true)
      (.ok (Datum.listTail [.symbol [0x61]] (.symbol [0x62]), stringPort [] 0x29 false)) :=
    Converges.succ ⟨0, fun n _ => hend n⟩
  constructor
  · refine ⟨⟨Port.openOn_at _ _, rfl⟩, ⟨stringPort [] 0x29 true, ?_, ?_⟩, by simp, by decide⟩
    · refine .inside (.read (Local.converges (fun _ => local_readHead) hlist) rfl) ?_
      refine .inside (.listElement (Local.converges (fun _ => local_listHead) helement) ha rfl) ?_
      exact .close (Local.converges (fun _ => local_listHead) hdot) hb
    · exact ⟨⟨rfl, .full rfl rfl rfl Utf8.encode_nil.symm⟩, rfl⟩
  · refine ⟨stringPort [] 0x29 false, converges_naviRead hlist ?_, ⟨rfl, .empty rfl rfl rfl⟩, rfl⟩
    refine converges_readList helement (ha.bind ?_)
    refine converges_readList hdot (hb.bind ?_)
    exact hclose

/-- Of a block comment whose text is a pipe, the end is missed. -/
theorem raises_naviRead_pipe {q : Port}
    (hq : q.At ([' '] ++ ((Comment.block ['|']).text ++ ([] ++ ['a'])))) :
    Raises (naviRead X) q := by
  have hdrop : dropSpaces ([' '] ++ ((Comment.block ['|']).text ++ ([] ++ ['a']))) =
      '#' :: ['|', '|', '|', '#', 'a'] := by decide
  have hloop : ∀ q : Port, q.At ['|', '|', '#', 'a'] → Raises blockComment q := by
    intro q hq
    have hpipe : ¬ (('|').toNat : ℤ) = ascii '#' := by decide
    refine Raises.succ ?_
    simp only [blockComment]
    have hnone : '|' ∉ ([] : List Char) := List.not_mem_nil
    refine (takes_skipUntil hnone hq).raises fun q₁ hq₁ _ => ?_
    refine (takes_ireadChar hq₁).raises fun q₂ hq₂ _ => ?_
    simp only [if_neg hpipe]
    refine Raises.succ ?_
    simp only [blockComment]
    exact (raises_skipUntil (by decide) hq₂).bind
  refine Raises.succ ?_
  simp only [naviRead_succ]
  refine (takes_readHead_sharp hq hdrop).raises fun q₁ hq₁ _ => ?_
  obtain ⟨q₂, hq₂, hiff⟩ := converges_readSharp_block (X := X) hq₁.stands
  obtain ⟨e, he, hraised⟩ := (hloop q₂ hq₂.toAt).bind (g := fun _ _ => pure Datum.void)
  exact Raises.bind ⟨e, (hiff _).mpr he, hraised⟩

end Neutral

end NaviScheme
