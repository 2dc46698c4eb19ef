import Ultrasight.TwoRuns
import Ultrasight.Walks

/-!
# The verbosity level

`registration_verbose` decides whether the functions of `config.c` also show
what they did. Two runs of the same calls at two levels are compared: where both
come to their end they do the same to the devices and return the same codes.
But `show_etm_config` fills in a configuration that its null pointer does not
point to, so that a run in which it is called does not come to its end.
-/

namespace Ultrasight

open Fn

/-- The devices, and all calls but the diagnostic ones. -/
def Rig.quiet (r : Rig) : Rig := { r with calls := r.calls.filter fun c => !c.diagnostic }

namespace Verbosity

/-- Calls turn out the same whatever was printed before, and to print is no
error. -/
structure Blind (e : Csal) : Prop where
  deaf : ∀ before c, e.answer before c = e.answer (before.filter fun c => !c.diagnostic) c
  silent : ∀ before c, c.diagnostic = true → (e.answer before c).errors = 0

/-- The sources of the CPUs are ETMv4s, and null is no device. -/
structure Etmv4Cores (e : Csal) : Prop where
  source : ∀ i < e.board.nCpu, e.isSource (e.source i) = true
  version : ∀ i < e.board.nCpu, e.isEtmv4 (e.source i) = true
  null : e.isSource csErrdesc = false

/-- The arguments of the calls that are not set up with the board. -/
structure Setup where
  range : MapInfo
  pid : BitVec 32
  ram : BitVec 64 × BitVec 64

inductive ConfigCall where
  | configureTrace | enableTrace | disableTraceSinksOnly | enableTraceSinksOnly | disableTrace
  deriving DecidableEq, Repr

def ConfigCall.body (e : Csal) (u : Setup) : ConfigCall → Fn Rig Int
  | .configureTrace => Ultrasight.configureTrace e (some e.board) e.devices u.range u.pid
  | .enableTrace => Ultrasight.enableTrace e (some e.board) e.devices u.ram
  | .disableTraceSinksOnly => Ultrasight.disableTraceSinksOnly e e.devices
  | .enableTraceSinksOnly => Ultrasight.enableTraceSinksOnly e e.devices
  | .disableTrace => Ultrasight.disableTrace e (some e.board) e.devices

/-- Calls one after the other, whatever they return. -/
def run (e : Csal) (u : Setup) : List ConfigCall → Fn Rig (List Int)
  | [] => pure []
  | c :: rest => do
    let rc ← c.body e u
    let rcs ← run e u rest
    pure (rc :: rcs)

/-- What `configure_trace` has put into `ptm`, if anything. -/
def Known (e : Csal) (r : Rig) : Prop :=
  ∀ i < e.board.nCpu, r.ptm i = csErrdesc ∨ r.ptm i = e.source i

/-- The same but for what was printed. -/
structure Related (e : Csal) (r r' : Rig) : Prop where
  same : r'.quiet = r.quiet
  known : Known e r

variable {e : Csal} {v v' : Int} {r r' : Rig} {c : CsCall}

namespace Related

theorem ptm (h : Related e r r') : r'.ptm = r.ptm := (congrArg Rig.ptm h.same :)

theorem calls (h : Related e r r') :
    (r'.calls.filter fun c => !c.diagnostic) = r.calls.filter fun c => !c.diagnostic :=
  congrArg Rig.calls h.same

theorem answer (h : Related e r r') (blind : Blind e) (c : CsCall) :
    e.answer r'.calls c = e.answer r.calls c := by
  rw [blind.deaf, h.calls, ← blind.deaf]

end Related

theorem quiet_after (blind : Blind e) (loud : c.diagnostic = false) (r : Rig) :
    (r.after (e.atLevel v) c).quiet = r.quiet.after e c := by
  have answer : e.answer r.quiet.calls c = e.answer r.calls c := (blind.deaf r.calls c).symm
  have kept : (c :: r.calls).filter (fun c => !c.diagnostic) = c :: r.quiet.calls :=
    List.filter_cons_of_pos (by rw [loud]; rfl)
  simp only [Rig.after, answer, Csal.atLevel]
  by_cases ok : (e.answer r.calls c).rc = 0
  · simp only [ok, if_true, Rig.quiet, kept]
    cases c <;> rfl
  · simp only [ok, if_false, Rig.quiet, kept]

theorem Related.after (h : Related e r r') (blind : Blind e) (loud : c.diagnostic = false) :
    Related e (r.after (e.atLevel v) c) (r'.after (e.atLevel v') c) := by
  constructor
  · rw [quiet_after blind loud, quiet_after blind loud, h.same]
  · intro i hi
    rw [after_ptm]
    exact h.known i hi

theorem alike_op (blind : Blind e) (loud : c.diagnostic = false) :
    Alike (Related e) (op (e.atLevel v) c) (op (e.atLevel v') c) := by
  intro r r' related
  have same : (e.answer r'.calls c).rc = (e.answer r.calls c).rc := by rw [related.answer blind]
  have after : Related e (r.after (e.atLevel v) c) (r'.after (e.atLevel v') c) :=
    related.after blind loud
  show Matched (Related e) (.ok (e.answer r.calls c).rc _) (.ok (e.answer r'.calls c).rc _)
  rw [same]
  exact .ok after

/-- A diagnostic call is not seen. -/
theorem quiet_printed (blind : Blind e) (r : Rig) :
    (r.after (e.atLevel v) .ctiDiag).quiet = r.quiet := by
  have none := blind.silent r.calls .ctiDiag rfl
  have kept : (CsCall.ctiDiag :: r.calls).filter (fun c => !c.diagnostic) = r.quiet.calls :=
    List.filter_cons_of_neg (by decide)
  simp only [Rig.after, Csal.atLevel, CsCall.perform, none, Nat.add_zero, Rig.quiet, kept]
  by_cases ok : (e.answer r.calls .ctiDiag).rc = 0
  · simp only [ok, if_true]
  · simp only [ok, if_false]

/-- What one level prints and the other does not. -/
theorem alike_printed (blind : Blind e) (b b' : Bool) :
    Alike (Related e) (when b (call (e.atLevel v) .ctiDiag))
      (when b' (call (e.atLevel v') .ctiDiag)) := by
  have printed : ∀ (b : Bool) (v : Int) (r : Rig), ∃ s,
      when b (call (e.atLevel v) .ctiDiag) r = .ok () s ∧ s.quiet = r.quiet := by
    intro b v r
    cases b with
    | true => exact ⟨_, rfl, quiet_printed blind r⟩
    | false => exact ⟨r, rfl, rfl⟩
  intro r r' related
  obtain ⟨s, left, same⟩ := printed b v r
  obtain ⟨s', right, same'⟩ := printed b' v' r'
  have ptm : s.ptm = r.ptm := (congrArg Rig.ptm same :)
  rw [left, right]
  apply Matched.ok
  constructor
  · rw [same, same', related.same]
  · intro i hi
    rw [ptm]
    exact related.known i hi

/-- The functions are walked through with the calls that do not print. -/
theorem agree_walk (blind : Blind e) :
    Walk (e.atLevel v) v' (fun c => c.diagnostic = false) fun {α} (x y : Fn Rig α) =>
      Agree (Related e) x y where
  toClosed := agree_closed
  op := fun _ loud => (alike_op blind loud).agree
  log := by
    apply Alike.agree
    apply alike_modify
    intro r r' related
    refine ⟨?_, related.known⟩
    have kept : ∀ r : Rig, (r.log .errorCount).quiet = r.quiet.log .errorCount := fun _ => rfl
    rw [kept, kept, related.same]
  look := by
    intro α f g deaf rest
    apply agree_get
    intro r r' related
    have same : f r = f r' := by
      rw [← deaf r, ← deaf r']
      exact congrArg f related.same.symm
    rw [same]
    exact rest r'

/-! ## `show_etm_config` -/

/-- On an ETMv4 it dereferences its null pointer. -/
theorem show_dies {etm : Dev} (new : e.isSource etm = true → etmv4 ≤ e.etmMajor etm) (r : Rig) :
    Died (showEtmConfig e etm r) := by
  apply died_of
  simp only [showEtmConfig, csDeviceHasClass, ensures_bind, ensures_call, ensures_pure,
    ensures_assert, ensures_when, ensures_crash, decide_eq_true_eq, decide_eq_false_iff_not]
  constructor
  · intro source
    exact ⟨fun _ => trivial, fun old => old (new source)⟩
  · exact fun _ => trivial

theorem known_new (cores : Etmv4Cores e) (known : Known e r) {i : Nat} (hi : i < e.board.nCpu)
    (source : e.isSource (r.ptm i) = true) : etmv4 ≤ e.etmMajor (r.ptm i) := by
  rcases known i hi with null | found
  · rw [null, cores.null] at source
    cases source
  · rw [found]
    exact e.etmv4 _ (cores.version i hi)

/-- The loop at the end of `disable_trace`. -/
def showAll (e : Csal) : Fn Rig Unit :=
  each (List.range e.board.nCpu) fun i => do
    let r ← get
    showEtmConfig e (r.ptm i)

theorem showAll_dies (cores : Etmv4Cores e) (some : 0 < e.board.nCpu) (known : Known e r) :
    Died (showAll (e.atLevel v) r) := by
  obtain ⟨n, hn⟩ : ∃ n, e.board.nCpu = n + 1 := ⟨e.board.nCpu - 1, by omega⟩
  have loop : showAll (e.atLevel v) = each (0 :: (List.range n).map Nat.succ) (fun i =>
      get >>= fun r => showEtmConfig (e.atLevel v) (r.ptm i)) := by
    show each (List.range e.board.nCpu) _ = _
    rw [hn, List.range_succ_eq_map]
  rw [loop]
  apply died_each
  exact show_dies (known_new cores known some) r

theorem agree_showAll (cores : Etmv4Cores e) (b b' : Bool) :
    Agree (Related e) (when b (showAll (e.atLevel v))) (when b' (showAll (e.atLevel v'))) := by
  by_cases none : e.board.nCpu = 0
  · have empty : ∀ v, showAll (e.atLevel v) = pure () := by
      intro v
      show each (List.range e.board.nCpu) _ = _
      rw [none]
      rfl
    rw [empty, empty]
    intro r r' related
    cases b <;> cases b' <;> exact .inl (.ok related)
  · have some : 0 < e.board.nCpu := Nat.pos_of_ne_zero none
    apply agree_dying
    · intro r r' related
      exact showAll_dies cores some related.known
    · intro r r' related
      apply showAll_dies cores some
      intro i hi
      rw [related.ptm]
      exact related.known i hi

/-! ## The calls -/

theorem agree_modify_ptm (i : Nat) {dev : Dev} (found : dev = csErrdesc ∨ dev = e.source i) :
    Agree (Related e) (modify fun r => { r with ptm := Function.update r.ptm i dev })
      (modify fun r => { r with ptm := Function.update r.ptm i dev }) := by
  apply Alike.agree
  apply alike_modify
  intro r r' related
  constructor
  · have kept : ∀ (r : Rig) (ptm : Nat → Dev),
        ({ r with ptm := ptm } : Rig).quiet = { r.quiet with ptm := ptm } := fun _ _ => rfl
    rw [kept, kept, related.same, related.ptm]
    rfl
  · intro j hj
    by_cases same : j = i
    · subst same
      simpa using found
    · simpa [Function.update_of_ne same] using related.known j hj

theorem agree_initEtm (blind : Blind e) (dev : Dev) :
    Agree (Related e) (initEtm (e.atLevel v) dev) (initEtm (e.atLevel v') dev) :=
  (agree_walk blind).initEtm (fun _ _ loud _ => loud) (alike_assert _).agree (alike_assert _).agree

theorem agree_configureTrace (blind : Blind e) (board : Board) (devices : Devices)
    (range : MapInfo) (pid : BitVec 32) :
    Agree (Related e) (configureTrace (e.atLevel v) (some board) devices range pid)
      (configureTrace (e.atLevel v') (some board) devices range pid) := by
  have walk := @agree_walk e v v' blind
  apply walk.configureTrace (fun _ _ loud _ => loud) fun _ _ => rfl
  · intro i _
    apply walk.preparePtm (fun _ _ loud _ => loud) fun _ _ => rfl
    · exact fun dev found => agree_modify_ptm i found
    · exact agree_initEtm blind _
  · intro etm new
    apply agree_dying
    · exact fun r _ _ => show_dies (fun _ => new) r
    · exact fun _ r _ => show_dies (fun _ => new) r

/-- **Two levels agree** on every call, unless one of the runs dies in it. -/
theorem agree_body (blind : Blind e) (cores : Etmv4Cores e) (u : Setup) (c : ConfigCall) :
    Agree (Related e) (c.body (e.atLevel v) u) (c.body (e.atLevel v') u) := by
  have walk := @agree_walk e v v' blind
  cases c with
  | configureTrace => exact agree_configureTrace blind _ _ _ _
  | enableTrace =>
    exact walk.enableTrace (fun _ _ loud _ => loud) (fun _ _ => rfl)
      (alike_printed blind _ _).agree (some e.board) e.devices u.ram
  | disableTraceSinksOnly => exact walk.disableTraceSinksOnly fun _ _ loud _ => loud
  | enableTraceSinksOnly => exact walk.enableTraceSinksOnly (fun _ _ loud _ => loud) _
  | disableTrace =>
    apply walk.disableTrace walk.opens (walk.call rfl) fun _ _ loud _ => loud
    exact agree_showAll cores _ _

theorem agree_run (blind : Blind e) (cores : Etmv4Cores e) (u : Setup) (script : List ConfigCall) :
    Agree (Related e) (run (e.atLevel v) u script) (run (e.atLevel v') u script) := by
  induction script with
  | nil => exact (alike_pure []).agree
  | cons c rest ih =>
    apply (agree_body blind cores u c).bind
    intro rc
    apply ih.bind
    intro rcs
    exact (alike_pure _).agree

end Verbosity

end Ultrasight
