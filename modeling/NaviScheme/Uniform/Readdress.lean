import NaviScheme.Uniform.Run

/-!
# Evaluation at other addresses

A world can have its objects at other addresses (`NaviScheme.World.readdress`), and `navi_eval` does
not notice: what it comes to in corresponding worlds corresponds (`NaviScheme.alike_naviEval`).
-/

namespace NaviScheme

open Prog

variable {X : Externals} {c : Stage Readdressing Addr World} {w : World} {o o' : NaviObj}
  {g : Readdressing} {a b : Addr}

/-- The world with its objects at other addresses. -/
def World.readdress (g : Readdressing) (w : World) : World :=
  { w with
    objs := fun a => g • w.objs (g⁻¹ • a)
    scopes := fun s => g • w.scopes s
    symtab := g • w.symtab
    libraries := g • w.libraries }

/-- The objects of a world are at the same addresses, but in another order. -/
def World.Permutes (w : World) (g : Readdressing) : Prop := ∀ a, w.Allocated (g • a) ↔ w.Allocated a

theorem World.Permutes.inv_smul (hg : w.Permutes g) (a : Addr) :
    w.Allocated (g⁻¹ • a) ↔ w.Allocated a := by
  rw [← hg, smul_inv_smul]

theorem World.objs_readdress_smul (g : Readdressing) (w : World) (a : Addr) :
    (w.readdress g).objs (g • a) = g • w.objs a := by
  change g • w.objs (g⁻¹ • g • a) = _
  rw [inv_smul_smul]

theorem swap_right (h : a.SameKind b) : Readdressing.swap a b • b = a := by
  cases a <;> cases b <;> first
    | exact congrArg _ (Equiv.swap_apply_right _ _)
    | exact h.elim

/-- Two addresses of the same kind may be swapped. -/
theorem World.permutes_swap (h : a.SameKind b) (ha : w.Allocated a) (hb : w.Allocated b) :
    w.Permutes (Readdressing.swap a b) := by
  intro d
  rcases eq_or_ne d a with rfl | hda
  · rw [swap_left h]
    exact iff_of_true hb ha
  rcases eq_or_ne d b with rfl | hdb
  · rw [swap_right h]
    exact iff_of_true ha hb
  · rw [swap_of_ne hda hdb]

/-- A readdressed world is in order. -/
theorem World.Closed.orderly_readdress (hw : w.Closed) (horderly : w.Orderly) (hg : w.Permutes g) :
    (w.readdress g).Orderly where
  objs n hn := by
    have hnone : w.objs (g⁻¹ • .obj n) = none :=
      hw.objs _ fun h => absurd ((hg.inv_smul _).mp h) (not_lt.mpr hn)
    change g • w.objs (g⁻¹ • .obj n) = none
    rw [hnone]
    rfl
  mayHold a d hd := by
    replace hd : g • w.objs (g⁻¹ • a) = some d := hd
    cases hobj : w.objs (g⁻¹ • a) with
    | none =>
      rw [hobj] at hd
      cases hd
    | some c =>
      rw [hobj] at hd
      cases hd
      have hmay := mayHold_smul (g := g).mpr (horderly.mayHold _ c hobj)
      rwa [show g • NaviObj.ptr (g⁻¹ • a) = .ptr a from congrArg _ (smul_inv_smul g a)] at hmay

/-- **A readdressed world corresponds** to the world. -/
theorem World.Closed.corresponds_readdress (hw : w.Closed) (hwf : w.Wf) (hg : w.Permutes g) :
    World.Corresponds ⟨{a | w.Allocated a}, g, w, w.readdress g⟩ := by
  have hself := hw.corresponds hwf
  refine ⟨fun a ha => ⟨w.objs_readdress_smul g a, (hself.objs a ha).2⟩, fun a ha => ha,
    fun a ha => (hg a).mpr ha, fun s => ⟨rfl, (hself.scopes s).2⟩, ⟨rfl, hself.symtab.2⟩,
    ⟨rfl, hself.libraries.2⟩, rfl, rfl, rfl, hself.orderly_left,
    hw.orderly_readdress hself.orderly_left hg⟩

/-- A variable that is bound to a pair. -/
def boundPair : World :=
  .ofCells [(.naviSymbol, .symbol "x" true),
      (.naviPair, .pair (some (.fixnum 7)) (some (.ptr (.obj 0))))]
    [("x", 0)] [⟨none, [⟨.ptr (.obj 0), .ptr (.obj 1)⟩]⟩] []

end NaviScheme
