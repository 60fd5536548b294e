import NaviScheme.Reader.Delimiting

/-!
# Between two tokens

The reader skips white space where one of its functions looks for the next token: at a call of
`navi_read`, in each round of `read_list`, and behind the last element of a list with a dot
(`NaviScheme.Gap`). On its way it comes to many such places (`NaviScheme.Passes`). If the characters
behind one of them are replaced, it still comes there, as long as a space keeps the tokens apart,
and what it returns depends on the new ones only through what is read there
(`NaviScheme.Passes.transfer`).
-/

namespace NaviScheme

open Fuel

/-- Where a reader looks for the next token. -/
inductive Gap
  /-- `navi_read` -/
  | read
  /-- a round of `read_list`, with the elements that have been read -/
  | list (elms : List Datum)
  /-- `read_list`, behind its last element -/
  | close (elms : List Datum) (last : Datum)

/-- What is read there. -/
def Gap.run (X : ReadEnv) : Gap → ℕ → ReadM Datum
  | .read => naviRead X
  | .list elms => fun n => readList X n elms
  | .close elms last => listEnd elms last

/-- A reader calls another one, or itself, on a port. -/
inductive Enters (X : ReadEnv) : Call → Port → Call → Port → Prop
  | read {p q : Port} {next : ReadNext} {c : Call} (h : Converges readHead p (.ok (next, q)))
    (hc : next.call = some c) : Enters X .read p c q
  /-- behind a comment that `read_sharp` has read -/
  | again {p q q' : Port} {d : Datum} (h : Converges readHead p (.ok (.sharp, q)))
    (hd : Converges (readSharp X) q (.ok (d, q'))) (hvoid : d.isVoid = true) :
    Enters X .read p .read q'
  | sharp {p q : Port} {next : SharpNext} {c : Call} (h : Converges (sharpHead X) p (.ok (next, q)))
    (hc : next.call = some c) : Enters X .sharp p c q
  | list {p q : Port} {elms : List Datum} {next : ListNext} {c : Call}
    (h : Converges listHead p (.ok (next, q))) (hc : next.call elms = some c)
    (hnext : next ≠ .element) : Enters X (.list elms) p c q
  /-- behind an element, or a comment, that `read_sharp` has read -/
  | listSharp {p q q' : Port} {elms : List Datum} {d : Datum}
    (h : Converges listHead p (.ok (.sharp, q))) (hd : Converges (readSharp X) q (.ok (d, q'))) :
    Enters X (.list elms) p (.list (if d.isVoid then elms else elms ++ [d])) q'
  /-- behind an element that `navi_read` has read -/
  | listElement {p q q' : Port} {elms : List Datum} {d : Datum}
    (h : Converges listHead p (.ok (.element, q))) (hd : Converges (naviRead X) q (.ok (d, q')))
    (heof : d.isEof = false) : Enters X (.list elms) p (.list (elms ++ [d])) q'

/-- A reader comes to a gap. -/
inductive Passes (X : ReadEnv) : Call → Port → Gap → Port → Prop
  | read {p : Port} : Passes X .read p .read p
  | list {p : Port} {elms : List Datum} : Passes X (.list elms) p (.list elms) p
  | inside {p q r : Port} {c c' : Call} {g : Gap} (h : Enters X c p c' q) (hq : Passes X c' q g r) :
    Passes X c p g r
  /-- inside an element; in front of it, there is the gap of the list -/
  | element {p q r : Port} {elms : List Datum} {g : Gap}
    (h : Converges listHead p (.ok (.element, q))) (hq : Passes X .read q g r)
    (hmore : ∀ cs, r.At cs → ¬ q.At cs) : Passes X (.list elms) p g r
  | close {p q r : Port} {elms : List Datum} {last : Datum}
    (h : Converges listHead p (.ok (.last, q))) (hd : Converges (naviRead X) q (.ok (last, r))) :
    Passes X (.list elms) p (.close elms last) r

/-! ### What is around a call -/

section Frames

variable {F G : ℕ → ReadM Datum} {k : Datum → ℕ → ReadM Datum} {p p' q q' : Port}

/-- What `F` returns is what `k` makes of what `G` returns. -/
def Frames (F : ℕ → ReadM Datum) (p : Port) (G : ℕ → ReadM Datum) (q : Port)
    (k : Datum → ℕ → ReadM Datum) : Prop :=
  ∀ r, Converges F p (.ok r) ↔
    ∃ d q₁, Converges G q (.ok (d, q₁)) ∧ Converges (k d) q₁ (.ok r)

/-- It depends on the port no further. -/
theorem Frames.gives (h : Frames F p G q k) (h' : Frames F p' G q' k)
    (hG : ∀ n, Local n G) (hk : ∀ n d, Local n (k d)) {cs : List Char} (hq : q.At cs)
    (hsame : ∀ d es fold, Gives G q d es fold → Gives G q' d es fold)
    {d : Datum} {es : List Char} {fold : Bool} (hF : Gives F p d es fold) :
    Gives F p' d es fold := by
  obtain ⟨s, hs, hat⟩ := hF
  obtain ⟨d', q₁, hd, hrest⟩ := (h _).mp hs
  obtain ⟨ds, hds, -⟩ := Local.exists_at hG hq hd
  obtain ⟨q₁', hd', hq₁'⟩ := hsame d' ds q₁.foldCase ⟨q₁, hd, hds.stands⟩
  obtain ⟨s', hs', hat'⟩ := Local.agree (fun n => hk n d') hds.stands hq₁' ⟨s, hrest, hat⟩
  exact ⟨s', (h' _).mpr ⟨d', q₁', hd', hs'⟩, hat'⟩

/-- `F` returns only if `G` does. -/
theorem Frames.exists_gives (h : Frames F p G q k) (hG : ∀ n, Local n G) {cs : List Char}
    (hq : q.At cs) {r : Datum × Port} (hF : Converges F p (.ok r)) :
    ∃ d es fold, Gives G q d es fold := by
  obtain ⟨d, q₁, hd, -⟩ := (h _).mp hF
  obtain ⟨ds, hds, -⟩ := Local.exists_at hG hq hd
  exact ⟨d, ds, q₁.foldCase, q₁, hd, hds.stands⟩

/-- A function that goes on as `G`, and then as `k`, behind a part of it that returns. -/
theorem Frames.of_bind {α : Type} {f : ℕ → ReadM α} {g : α → ℕ → ReadM Datum} {a : α}
    (hf : ∀ n, Local n f) (hg : ∀ n a, Local n (g a)) (h : Converges f p (.ok (a, q)))
    (hframes : Frames (g a) q G q' k) :
    Frames (fun n => f n >>= fun a => g a n) p G q' k := by
  intro r
  rw [← hframes r]
  constructor
  · exact fun hr => converges_of_bind hf hg hr h
  · exact fun hr => h.bind hr

theorem Frames.succ (h : Frames (fun n => F (n + 1)) p G q k) : Frames F p G q k := by
  intro r
  rw [← h r]
  constructor
  · exact fun hr => hr.of_succ
  · exact fun hr => hr.succ

/-- The frame around the call itself. -/
theorem Frames.call (hG : ∀ n, Local n G) (hk : ∀ n d, Local n (k d)) (p : Port) :
    Frames (fun n => G n >>= fun d => k d n) p G p k := by
  intro r
  constructor
  · exact fun hr => exists_converges_bind hG hk hr
  · rintro ⟨d, q₁, hd, hrest⟩
    exact hd.bind hrest

/-- A call whose result is returned. -/
theorem Frames.tail (p : Port) : Frames G p G p fun d _ => pure d := by
  intro r
  constructor
  · exact fun hr => ⟨r.1, r.2, hr, Converges.const rfl⟩
  · rintro ⟨d, q₁, hd, hrest⟩
    cases hrest.unique (Converges.const rfl)
    exact hd

end Frames

/-! ### Calls inside a call -/

section Calls

variable {X : ReadEnv} {p q q' : Port} {c c' : Call} {G : ℕ → ReadM Datum}
  {k : Datum → ℕ → ReadM Datum}

theorem Call.local_run (c : Call) (n : ℕ) : Local n (c.run X) := (delimits_run c).toLocal

theorem Gap.local_run (g : Gap) (n : ℕ) : Local n (g.run X) := by
  cases g with
  | read => exact Call.local_run .read n
  | list elms => exact Call.local_run (.list elms) n
  | close elms last => exact (delimits_listEnd elms last).toLocal

theorem frames_naviRead {next : ReadNext} (h : Converges readHead p (.ok (next, q)))
    (hframes : Frames (fun n => readNext X n next) q G q' k) : Frames (naviRead X) p G q' k := by
  refine Frames.succ ?_
  simp only [naviRead_succ]
  exact Frames.of_bind (fun _ => local_readHead)
    (fun n next => (delimits_readNext (fun c => delimits_run c) next).toLocal) h hframes

theorem frames_readSharp {next : SharpNext} (h : Converges (sharpHead X) p (.ok (next, q)))
    (hframes : Frames (fun n => sharpNext X n next) q G q' k) : Frames (readSharp X) p G q' k := by
  refine Frames.succ ?_
  simp only [readSharp_succ]
  exact Frames.of_bind (fun _ => (delimits_sharpHead X).toLocal)
    (fun n next => (delimits_sharpNext (fun c => delimits_run c) next).toLocal) h hframes

theorem frames_readList {elms : List Datum} {next : ListNext}
    (h : Converges listHead p (.ok (next, q)))
    (hframes : Frames (fun n => listNext X n elms next) q G q' k) :
    Frames (fun n => readList X n elms) p G q' k := by
  refine Frames.succ ?_
  simp only [readList_succ]
  exact Frames.of_bind (fun _ => local_listHead)
    (fun n next => (delimits_listNext (fun c => delimits_run c) elms next).toLocal) h hframes

/-- What is left to do for `navi_read` behind a call. -/
theorem exists_frames_readNext {next : ReadNext} (hc : next.call = some c) :
    ∃ k, (∀ n d, Local n (k d)) ∧
      ∀ p, Frames (fun n => readNext X n next) p (c.run X) p k := by
  cases next with
  | done d => cases hc
  | string => cases hc
  | wrap symbol =>
    cases hc
    exact ⟨fun d _ => pure (naviSymWrap symbol d), fun n d => Local.pure _,
      Frames.call (Call.local_run .read) fun n d => Local.pure _⟩
  | sharp =>
    cases hc
    have hk : ∀ n d, Local n fun n => if d.isVoid then naviRead X n else pure d :=
      fun n d => Local.ite (Call.local_run .read n) (Local.pure d)
    exact ⟨_, hk, Frames.call (Call.local_run .sharp) hk⟩
  | list =>
    cases hc
    exact ⟨_, fun n d => Local.pure d, Frames.tail⟩
  | again =>
    cases hc
    exact ⟨_, fun n d => Local.pure d, Frames.tail⟩

/-- What is left to do for `read_sharp` behind a call. -/
theorem exists_frames_sharpNext {next : SharpNext} (hc : next.call = some c) :
    ∃ k, (∀ n d, Local n (k d)) ∧
      ∀ p, Frames (fun n => sharpNext X n next) p (c.run X) p k := by
  cases next with
  | done d => cases hc
  | vector =>
    cases hc
    exact ⟨_, fun n d => Local.pure _, Frames.call (Call.local_run (.list [])) fun n d => Local.pure _⟩
  | bytevec =>
    cases hc
    have hk : ∀ n d, Local n fun _ => (liftM (naviListToBytevec d) : ReadM Datum) :=
      fun n d => (Delimits.lift _).toLocal
    exact ⟨_, hk, Frames.call (Call.local_run (.list [])) hk⟩
  | internal =>
    cases hc
    have hk : ∀ n d, Local n fun _ => (liftM (X.naviGetInternal d) : ReadM Datum) :=
      fun n d => (Delimits.lift _).toLocal
    exact ⟨_, hk, Frames.call (Call.local_run .read) hk⟩
  | comment =>
    cases hc
    exact ⟨_, fun n d => Local.pure _, Frames.call (Call.local_run .read) fun n d => Local.pure _⟩

/-- What is left to do for a round of `read_list` behind a call. -/
theorem exists_frames_listNext {elms : List Datum} {next : ListNext}
    (hc : next.call elms = some c) :
    ∃ k, (∀ n d, Local n (k d)) ∧
      ∀ p, Frames (fun n => listNext X n elms next) p (c.run X) p k := by
  cases next with
  | close => cases hc
  | last =>
    cases hc
    have hk : ∀ n d, Local n (listEnd elms d) := fun n d => (delimits_listEnd elms d).toLocal
    exact ⟨_, hk, Frames.call (Call.local_run .read) hk⟩
  | symbol expr =>
    cases hc
    exact ⟨_, fun n d => Local.pure d, Frames.tail⟩
  | sharp =>
    cases hc
    have hk : ∀ n d, Local n fun n => if d.isVoid then readList X n elms
        else readList X n (elms ++ [d]) :=
      fun n d => Local.ite (Call.local_run (.list elms) n) (Call.local_run (.list _) n)
    exact ⟨_, hk, Frames.call (Call.local_run .sharp) hk⟩
  | skip =>
    cases hc
    exact ⟨_, fun n d => Local.pure d, Frames.tail⟩
  | element =>
    cases hc
    have hk : ∀ n d, Local n fun n => if d.isEof then throw unexpectedEof
        else readList X n (elms ++ [d]) :=
      fun n d => Local.ite (Local.throw _) (Call.local_run (.list _) n)
    exact ⟨_, hk, Frames.call (Call.local_run .read) hk⟩

theorem exists_frames_element (X : ReadEnv) (elms : List Datum) :
    ∃ k, (∀ n d, Local n (k d)) ∧
      ∀ p, Frames (fun n => listNext X n elms .element) p (naviRead X) p k :=
  exists_frames_listNext (c := .read) rfl

/-- Behind a comment, `navi_read` begins again. -/
theorem frames_again {d : Datum} (h : Converges readHead p (.ok (.sharp, q)))
    (hd : Converges (readSharp X) q (.ok (d, q'))) (hvoid : d.isVoid = true) :
    Frames (naviRead X) p (naviRead X) q' fun d _ => pure d := by
  refine frames_naviRead h (Frames.of_bind (Call.local_run .sharp) (fun n d =>
    Local.ite (Call.local_run .read n) (Local.pure d)) hd ?_)
  simp only [if_pos hvoid]
  exact Frames.tail q'

/-- Behind what `read_sharp` has read, there is another round of `read_list`. -/
theorem frames_listSharp {elms : List Datum} {d : Datum}
    (h : Converges listHead p (.ok (.sharp, q))) (hd : Converges (readSharp X) q (.ok (d, q'))) :
    Frames (fun n => readList X n elms) p
      (fun n => readList X n (if d.isVoid then elms else elms ++ [d])) q' fun d _ => pure d := by
  refine frames_readList h (Frames.of_bind (Call.local_run .sharp) (fun n d =>
    Local.ite (Call.local_run (.list elms) n) (Call.local_run (.list (elms ++ [d])) n)) hd ?_)
  split_ifs
  · exact Frames.tail q'
  · exact Frames.tail q'

/-- Behind an element, too. -/
theorem frames_listElement {elms : List Datum} {d : Datum}
    (h : Converges listHead p (.ok (.element, q))) (hd : Converges (naviRead X) q (.ok (d, q')))
    (heof : d.isEof = false) :
    Frames (fun n => readList X n elms) p (fun n => readList X n (elms ++ [d])) q'
      fun d _ => pure d := by
  refine frames_readList h (Frames.of_bind (Call.local_run .read) (fun n d =>
    Local.ite (Local.throw _) (Call.local_run (.list (elms ++ [d])) n)) hd ?_)
  simp only [heof, Bool.false_eq_true, if_false]
  exact Frames.tail q'

/-- Behind the last element, the list is closed. -/
theorem frames_close {elms : List Datum} {last : Datum}
    (h : Converges listHead p (.ok (.last, q))) (hd : Converges (naviRead X) q (.ok (last, q'))) :
    Frames (fun n => readList X n elms) p (listEnd elms last) q' fun d _ => pure d :=
  frames_readList h (Frames.of_bind (Call.local_run .read)
    (fun _ last => (delimits_listEnd elms last).toLocal) hd (Frames.tail q'))

/-- A call inside another one is framed by it. -/
theorem Enters.exists_frames (h : Enters X c p c' q) :
    ∃ k, (∀ n d, Local n (k d)) ∧ Frames (c.run X) p (c'.run X) q k := by
  cases h with
  | read h hc =>
    obtain ⟨k, hk, hframes⟩ := exists_frames_readNext (X := X) hc
    exact ⟨k, hk, frames_naviRead h (hframes q)⟩
  | again h hd hvoid => exact ⟨_, fun n d => Local.pure d, frames_again h hd hvoid⟩
  | sharp h hc =>
    obtain ⟨k, hk, hframes⟩ := exists_frames_sharpNext (X := X) hc
    exact ⟨k, hk, frames_readSharp h (hframes q)⟩
  | list h hc _ =>
    obtain ⟨k, hk, hframes⟩ := exists_frames_listNext (X := X) hc
    exact ⟨k, hk, frames_readList h (hframes q)⟩
  | listSharp h hd => exact ⟨_, fun n d => Local.pure d, frames_listSharp h hd⟩
  | listElement h hd heof => exact ⟨_, fun n d => Local.pure d, frames_listElement h hd heof⟩

/-! ### Other characters behind a gap -/

variable {u y t t' cs : List Char} {w : Char} {fold fold' : Bool}

/-- Where a port stands between two parts. -/
theorem exists_stands_between {α β : Type} {f : ℕ → ReadM α} {g : ℕ → ReadM β} {a : α} {b : β}
    {q₁ : Port} (hf : ∀ n, Local n f) (hg : ∀ n, Local n g) (hp : p.At cs)
    (h : Converges f p (.ok (a, q₁))) (hb : Converges g q₁ (.ok (b, q))) (hq : q.At (y ++ t)) :
    ∃ z, q₁.Stands ((z ++ y) ++ t) q₁.foldCase := by
  obtain ⟨ds, hds, -⟩ := Local.exists_at hf hp h
  obtain ⟨es, hes, z, hz⟩ := Local.exists_at hg hds hb
  obtain rfl := hes.unique hq
  rw [← hz, ← List.append_assoc] at hds
  exact ⟨z, hds.stands⟩

/-- The round of `read_list` that reads no element. -/
theorem listHead_transfer {p' : Port} {next : ListNext} (hnext : next ≠ .element) (ht : t ≠ [])
    (hw : isspace w.toNat = true) (hp : p.Stands (u ++ t) fold)
    (hp' : p'.Stands (u ++ w :: t') fold) (h : Converges listHead p (.ok (next, q)))
    (hq : q.Stands (y ++ t) fold') :
    ∃ q', Converges listHead p' (.ok (next, q')) ∧ q'.Stands (y ++ w :: t') fold' := by
  by_cases hy : y = []
  · subst hy
    obtain ⟨N, hN⟩ := h
    obtain ⟨q', hq', hat⟩ := listHead_stops hnext ht hw hp hp' (hN N le_rfl) hq
    exact ⟨q', Local.converges (fun _ => local_listHead) hq', hat⟩
  · exact Local.transfer (fun _ => local_listHead) hp hp' hy h hq

/-- An element takes a character. -/
theorem listElement_fewer {d : Datum} {q₁ : Port} (hp : p.At cs)
    (h : Converges listHead p (.ok (.element, q₁))) (hd : Converges (naviRead X) q₁ (.ok (d, q)))
    (hq : q.At t) : ¬ q₁.At t := by
  intro hq₁
  have hdrop : dropSpaces t ≠ [] := by
    obtain ⟨N, hN⟩ := h
    have hhead := hN N le_rfl
    rw [listHead_eq] at hhead
    obtain ⟨c, p₁, hpeek, hrun⟩ := bind_eq_ok_readM hhead
    rw [ListAction.eq_element hrun] at hrun
    cases hrun
    obtain ⟨e, es, hes, -, hat⟩ := (halts_ipeekFirstChar hp.has).meets
      (Local.converges (fun _ => local_ipeekFirstChar) hpeek)
    obtain rfl := hat.unique hq₁.has
    rw [dropSpaces_dropSpaces, hes]
    exact List.cons_ne_nil e es
  obtain ⟨N, hN⟩ := hd
  exact (naviRead_fewer (fun _ _ c => delimits_run c) hq₁ hdrop (hN N le_rfl)).not_at hq

/-- **One call inside another is made in the same way** if the characters behind some point are
replaced by others, a space in front of them. -/
theorem Enters.transfer {p' : Port} (h : Enters X c p c' q) (ht : t ≠ [])
    (hw : isspace w.toNat = true) (hp : p.Stands (u ++ t) fold)
    (hp' : p'.Stands (u ++ w :: t') fold) (hq : q.Stands (y ++ t) fold') :
    ∃ q', Enters X c p' c' q' ∧ q'.Stands (y ++ w :: t') fold' ∧
      ∃ k, (∀ n d, Local n (k d)) ∧ Frames (c.run X) p (c'.run X) q k ∧
        Frames (c.run X) p' (c'.run X) q' k := by
  cases h with
  | read h hc =>
    obtain ⟨k, hk, hframes⟩ := exists_frames_readNext (X := X) hc
    obtain ⟨q', h', hq'⟩ := Delimits.transfer (fun _ => delimits_readHead) ht hw hp hp' h hq
    exact ⟨q', .read h' hc, hq', k, hk, frames_naviRead h (hframes q),
      frames_naviRead h' (hframes q')⟩
  | @again _ q₁ _ d h hd hvoid =>
    obtain ⟨z, hq₁⟩ := exists_stands_between (fun _ => local_readHead) (Call.local_run .sharp)
      hp.toAt h hd hq.toAt
    obtain ⟨q₁', h', hq₁'⟩ := Delimits.transfer (fun _ => delimits_readHead) ht hw hp hp' h hq₁
    obtain ⟨q', hd', hq'⟩ :=
      Delimits.transfer (fun _ => delimits_run .sharp) ht hw hq₁ hq₁' hd hq
    exact ⟨q', .again h' hd' hvoid, hq', _, fun n d => Local.pure d, frames_again h hd hvoid,
      frames_again h' hd' hvoid⟩
  | sharp h hc =>
    obtain ⟨k, hk, hframes⟩ := exists_frames_sharpNext (X := X) hc
    obtain ⟨q', h', hq'⟩ := Delimits.transfer (fun _ => delimits_sharpHead X) ht hw hp hp' h hq
    exact ⟨q', .sharp h' hc, hq', k, hk, frames_readSharp h (hframes q),
      frames_readSharp h' (hframes q')⟩
  | list h hc hnext =>
    obtain ⟨k, hk, hframes⟩ := exists_frames_listNext (X := X) hc
    obtain ⟨q', h', hq'⟩ := listHead_transfer hnext ht hw hp hp' h hq
    exact ⟨q', .list h' hc hnext, hq', k, hk, frames_readList h (hframes q),
      frames_readList h' (hframes q')⟩
  | @listSharp _ q₁ _ elms d h hd =>
    obtain ⟨z, hq₁⟩ := exists_stands_between (fun _ => local_listHead) (Call.local_run .sharp)
      hp.toAt h hd hq.toAt
    obtain ⟨q₁', h', hq₁'⟩ := listHead_transfer (by simp) ht hw hp hp' h hq₁
    obtain ⟨q', hd', hq'⟩ :=
      Delimits.transfer (fun _ => delimits_run .sharp) ht hw hq₁ hq₁' hd hq
    exact ⟨q', .listSharp h' hd', hq', _, fun n d => Local.pure d, frames_listSharp h hd,
      frames_listSharp h' hd'⟩
  | @listElement _ q₁ _ elms d h hd heof =>
    obtain ⟨z, hq₁⟩ := exists_stands_between (fun _ => local_listHead) (Call.local_run .read)
      hp.toAt h hd hq.toAt
    have hz : z ++ y ≠ [] := by
      intro hnil
      obtain ⟨-, rfl⟩ := List.append_eq_nil_iff.mp hnil
      rw [hnil] at hq₁
      exact listElement_fewer hp.toAt h hd hq.toAt hq₁.toAt
    obtain ⟨q₁', h', hq₁'⟩ := Local.transfer (fun _ => local_listHead) hp hp' hz h hq₁
    obtain ⟨q', hd', hq'⟩ :=
      Delimits.transfer (fun _ => delimits_run .read) ht hw hq₁ hq₁' hd hq
    exact ⟨q', .listElement h' hd' heof, hq', _, fun n d => Local.pure d,
      frames_listElement h hd heof, frames_listElement h' hd' heof⟩

theorem Enters.exists_at (h : Enters X c p c' q) (hp : p.At cs) :
    ∃ ds, q.At ds ∧ ds <:+ cs := by
  have htwo : ∀ {α β : Type} {f : ℕ → ReadM α} {g : ℕ → ReadM β} {a : α} {b : β} {q₁ q : Port},
      (∀ n, Local n f) → (∀ n, Local n g) → Converges f p (.ok (a, q₁)) →
        Converges g q₁ (.ok (b, q)) → ∃ ds, q.At ds ∧ ds <:+ cs := by
    intro α β f g a b q₁ q hf hg h hb
    obtain ⟨ds, hds, hsuf⟩ := Local.exists_at hf hp h
    obtain ⟨es, hes, hsuf'⟩ := Local.exists_at hg hds hb
    exact ⟨es, hes, hsuf'.trans hsuf⟩
  cases h with
  | read h _ => exact Local.exists_at (fun _ => local_readHead) hp h
  | again h hd _ => exact htwo (fun _ => local_readHead) (Call.local_run .sharp) h hd
  | sharp h _ => exact Local.exists_at (fun _ => (delimits_sharpHead X).toLocal) hp h
  | list h _ _ => exact Local.exists_at (fun _ => local_listHead) hp h
  | listSharp h hd => exact htwo (fun _ => local_listHead) (Call.local_run .sharp) h hd
  | listElement h hd _ => exact htwo (fun _ => local_listHead) (Call.local_run .read) h hd

variable {g : Gap} {r : Port}

theorem Passes.exists_at (h : Passes X c p g r) : ∀ {cs : List Char}, p.At cs →
    ∃ ds, r.At ds ∧ ds <:+ cs := by
  induction h with
  | read => exact fun hp => ⟨_, hp, List.suffix_rfl⟩
  | list => exact fun hp => ⟨_, hp, List.suffix_rfl⟩
  | inside h _ ih =>
    intro cs hp
    obtain ⟨ds, hds, hsuf⟩ := h.exists_at hp
    obtain ⟨es, hes, hsuf'⟩ := ih hds
    exact ⟨es, hes, hsuf'.trans hsuf⟩
  | element h _ _ ih =>
    intro cs hp
    obtain ⟨ds, hds, hsuf⟩ := Local.exists_at (fun _ => local_listHead) hp h
    obtain ⟨es, hes, hsuf'⟩ := ih hds
    exact ⟨es, hes, hsuf'.trans hsuf⟩
  | close h hd =>
    intro cs hp
    obtain ⟨ds, hds, hsuf⟩ := Local.exists_at (fun _ => local_listHead) hp h
    obtain ⟨es, hes, hsuf'⟩ := Local.exists_at (Call.local_run .read) hds hd
    exact ⟨es, hes, hsuf'.trans hsuf⟩

/-- Where a reader stands that comes to a gap in front of some characters. -/
theorem Passes.exists_stands (h : Passes X c p g r) (hp : p.At cs) (hr : r.At t) :
    ∃ y, p.Stands (y ++ t) p.foldCase := by
  obtain ⟨ds, hds, y, rfl⟩ := h.exists_at hp
  obtain rfl := hds.unique hr
  exact ⟨y, hp.stands⟩

/-- A reader that comes to a gap returns only if something is read there. -/
theorem Passes.exists_gives (h : Passes X c p g r) : ∀ {cs : List Char} {res : Datum × Port},
    p.At cs → Converges (c.run X) p (.ok res) → ∃ d es fold, Gives (g.run X) r d es fold := by
  have hhere : ∀ {c : Call} {p : Port} {cs : List Char} {res : Datum × Port}, p.At cs →
      Converges (c.run X) p (.ok res) → ∃ d es fold, Gives (c.run X) p d es fold := by
    intro c p cs res hp hres
    obtain ⟨ds, hds, -⟩ := Local.exists_at (Call.local_run c) hp hres
    exact ⟨res.1, ds, res.2.foldCase, res.2, hres, hds.stands⟩
  induction h with
  | read => exact fun hp hres => hhere hp hres
  | list => exact fun hp hres => hhere hp hres
  | inside h _ ih =>
    intro cs res hp hres
    obtain ⟨k, -, hframes⟩ := h.exists_frames
    obtain ⟨ds, hds, -⟩ := h.exists_at hp
    obtain ⟨d, q₁, hd, -⟩ := (hframes res).mp hres
    exact ih hds hd
  | @element p q r elms g h _ _ ih =>
    intro cs res hp hres
    obtain ⟨k, -, hframes⟩ := exists_frames_element X elms
    obtain ⟨ds, hds, -⟩ := Local.exists_at (fun _ => local_listHead) hp h
    obtain ⟨d, q₁, hd, -⟩ := (frames_readList h (hframes q) res).mp hres
    exact ih hds hd
  | close h hd =>
    intro cs res hp hres
    obtain ⟨ds, hds, -⟩ := Local.exists_at (fun _ => local_listHead) hp h
    obtain ⟨es, hes, -⟩ := Local.exists_at (Call.local_run .read) hds hd
    exact (frames_close h hd).exists_gives (fun _ => (delimits_listEnd _ _).toLocal) hes hres

/-- If what is read at the gap is the same, the reader returns the same. -/
def Passes.Same (X : ReadEnv) (c : Call) (p p' : Port) (g : Gap) (r r' : Port) : Prop :=
  (∀ d es fold, Gives (g.run X) r d es fold → Gives (g.run X) r' d es fold) →
    ∀ d es fold, Gives (c.run X) p d es fold → Gives (c.run X) p' d es fold

/-- **The reader comes to the same gap** if the characters behind it are replaced by others, a space
in front of them; and if they read the same there, it returns the same. -/
theorem Passes.transfer (h : Passes X c p g r) (ht : t ≠ []) (hw : isspace w.toNat = true) :
    ∀ {u : List Char} {fold fold' : Bool} {p' : Port}, p.Stands (u ++ t) fold →
      r.Stands t fold' → p'.Stands (u ++ w :: t') fold →
        ∃ r', Passes X c p' g r' ∧ r'.Stands (w :: t') fold' ∧ Passes.Same X c p p' g r r' := by
  have hhere : ∀ {u : List Char} {fold fold' : Bool} {p p' : Port}, p.Stands (u ++ t) fold →
      p.Stands t fold' → p'.Stands (u ++ w :: t') fold → p'.Stands (w :: t') fold' := by
    intro u fold fold' p p' hp hr hp'
    have hu : u = [] := List.append_left_eq_self.mp (hp.toAt.unique hr.toAt)
    obtain rfl := hp.folds.symm.trans hr.folds
    subst hu
    exact hp'
  induction h with
  | read =>
    intro u fold fold' p' hp hr hp'
    exact ⟨p', .read, hhere hp hr hp', fun hsame => hsame⟩
  | list =>
    intro u fold fold' p' hp hr hp'
    exact ⟨p', .list, hhere hp hr hp', fun hsame => hsame⟩
  | inside h hq ih =>
    intro u fold fold' p' hp hr hp'
    obtain ⟨ds, hds, -⟩ := h.exists_at hp.toAt
    obtain ⟨y, hat⟩ := hq.exists_stands hds hr.toAt
    obtain ⟨q', h', hat', k, hk, hframes, hframes'⟩ := h.transfer ht hw hp hp' hat
    obtain ⟨r', hq', hr', hsame⟩ := ih hat hr hat'
    refine ⟨r', .inside h' hq', hr', fun hgap d es fold => ?_⟩
    exact hframes.gives hframes' (Call.local_run _) hk hds (hsame hgap)
  | @element p q r elms g h hq hmore ih =>
    intro u fold fold' p' hp hr hp'
    obtain ⟨ds, hds, -⟩ := Local.exists_at (fun _ => local_listHead) hp.toAt h
    obtain ⟨y, hat⟩ := hq.exists_stands hds hr.toAt
    have hy : y ≠ [] := by
      rintro rfl
      exact hmore t hr.toAt hat.toAt
    obtain ⟨q', h', hat'⟩ := Local.transfer (fun _ => local_listHead) hp hp' hy h hat
    obtain ⟨r', hq', hr', hsame⟩ := ih hat hr hat'
    obtain ⟨k, hk, hframes⟩ := exists_frames_element X elms
    have hmore' : ∀ cs, r'.At cs → ¬ q'.At cs := by
      intro cs hcs hcs'
      obtain rfl := hcs.unique hr'.toAt
      exact hy (List.append_left_eq_self.mp (hat'.toAt.unique hcs'))
    refine ⟨r', .element h' hq' hmore', hr', fun hgap d es fold => ?_⟩
    exact (frames_readList h (hframes q)).gives (frames_readList h' (hframes q'))
      (Call.local_run .read) hk hds (hsame hgap)
  | @close p q r elms last h hd =>
    intro u fold fold' p' hp hr hp'
    obtain ⟨z, hat⟩ := exists_stands_between (y := []) (fun _ => local_listHead)
      (Call.local_run .read) hp.toAt h hd hr.toAt
    obtain ⟨q', h', hat'⟩ := listHead_transfer (by simp) ht hw hp hp' h hat
    obtain ⟨r', hd', hr'⟩ :=
      Delimits.transfer (y := []) (fun _ => delimits_run .read) ht hw hat hat' hd hr
    refine ⟨r', .close h' hd', hr', fun hgap d es fold => ?_⟩
    exact (frames_close h hd).gives (frames_close h' hd') (fun _ => (delimits_listEnd elms last).toLocal)
      (fun n d => Local.pure d) hr.toAt hgap

end Calls

end NaviScheme
