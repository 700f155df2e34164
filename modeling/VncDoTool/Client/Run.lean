import VncDoTool.Client.Dispatch

/-!
# Runs of a client

The points a client passes through while a server's bytes are delivered to it, and what each call
of a handler comes to for a client with the callbacks of `RFBClient` itself.

* `RFBClient.base`: such a client's environment.
* `RFBClient.Reaches`: the points of a run, one for every handler call, with the bytes delivered
  so far; `Reaches.induct`: what every delivery and every handler call keeps holds of all of them.
* `RFBClient.ReachesBy`: the points of a run whose handler calls all find a client that meets a
  condition.
* `RFBClient.reaches_handleExpected`, `RFBClient.reaches_dataReceived`: the loop and a delivery stay
  among these points.
* `run_*`: the handlers, evaluated.
-/

namespace VncDoTool

namespace RFBClient

variable {D S : Type}

/-- The environment of a client that overrides nothing. -/
def base (library : Library) (decoders : ℤ → Option (Decoder (D := D) (S := S) (baseCallback library))) :
    Env D S where
  callback := baseCallback library
  decoders := decoders
  library := library

/-- Library code for runs that call none of it. -/
def sampleLibrary : Library where
  tripleDes _ data := data
  urandom _ n := ⟨List.replicate n 0, List.length_replicate⟩
  exchange _ _ _ := .error ⟨.valueError, "invalid parameters"⟩
  md5 data := data
  aes _ data := data
  optionsError _ := none
  input := ""
  getpass := ""

/-! ## The points of a run -/

/-- The loop is not running: a delivery may come. -/
def Resting : Delivery D S → Prop
  | .ok _ c => ready c = false
  | .error _ _ => True

/-- A point of a run from `c₀` on which `received` was delivered so far. -/
inductive Reaches (env : Env D S) (c₀ : RFBClient D S) : (received : Bytes) → Delivery D S → Prop
  | start : Reaches env c₀ [] (.ok () c₀)
  /-- A delivery, up to the loop. -/
  | delivered {received : Bytes} {d : Delivery D S} (data : Bytes) (h : Reaches env c₀ received d)
      (hrest : Resting d) (hlive : (client d).aborted = false) :
      Reaches env c₀ (received ++ data) ((deliver env data).run (client d))
  /-- A delivery to a client that has aborted. -/
  | dropped {received : Bytes} {d : Delivery D S} (data : Bytes) (h : Reaches env c₀ received d)
      (hrest : Resting d) (habort : (client d).aborted = true) :
      Reaches env c₀ (received ++ data) (.ok () (client d))
  /-- One turn of the loop. -/
  | turned {received : Bytes} {c : RFBClient D S} (h : Reaches env c₀ received (.ok () c))
      (hready : ready c = true) : Reaches env c₀ received ((turn env).run c)

/-- What deliveries and handler calls keep holds at every point of a run. -/
theorem Reaches.induct {env : Env D S} {c₀ : RFBClient D S} {P : Bytes → RFBClient D S → Prop}
    (hstart : P [] c₀)
    (hdeliver : ∀ received c data, P received c → c.aborted = false →
      P (received ++ data) (client ((deliver env data).run c)))
    (hdrop : ∀ received c data, P received c → c.aborted = true → P (received ++ data) c)
    (hturn : ∀ received c, P received c → ready c = true → P received (client ((turn env).run c)))
    {received : Bytes} {d : Delivery D S} (h : Reaches env c₀ received d) : P received (client d) := by
  induction h with
  | start => exact hstart
  | delivered data _ _ hlive ih => exact hdeliver _ _ data ih hlive
  | dropped data _ _ habort ih => exact hdrop _ _ data ih habort
  | turned _ hready ih => exact hturn _ _ ih hready

/-- Whether a delivery, or a handler call in it, has returned. -/
def returned : Delivery D S → Bool
  | .ok _ _ => true
  | .error _ _ => false

/-- What has returned goes on from the client it left. -/
theorem Reaches.returned {env : Env D S} {c₀ : RFBClient D S} {received : Bytes} {d : Delivery D S}
    (h : Reaches env c₀ received d) (hreturned : RFBClient.returned d = true) :
    Reaches env c₀ received (.ok () (client d)) := by
  cases d with
  | ok u c => exact h
  | error e c => exact absurd hreturned (by simp [RFBClient.returned])

/-- A client that has aborted handles nothing more. -/
theorem ready_of_aborted {c : RFBClient D S} (h : c.aborted = true) : ready c = false := by
  unfold ready
  cases c.phase with
  | initial => rfl
  | expecting e => simp [h]

/-- Where its condition fails, the loop is over. -/
theorem handleExpected_of_not_ready {env : Env D S} {c : RFBClient D S} (fuel : ℕ)
    (h : ready c = false) : handleExpected env fuel c = some (.ok () c) := by
  unfold handleExpected
  simp [h]

/-- Where its condition holds, the loop takes a turn and goes on. -/
theorem handleExpected_of_ready {env : Env D S} {c : RFBClient D S} (fuel : ℕ)
    (h : ready c = true) :
    handleExpected env (fuel + 1) c = match (turn env).run c with
      | .ok _ c' => handleExpected env fuel c'
      | .error e c' => some (.error e c') := by
  exact if_pos h

/-- The loop stays among the points of a run. -/
theorem reaches_handleExpected {env : Env D S} {c₀ c : RFBClient D S} {received : Bytes} {fuel : ℕ}
    {d : Delivery D S} (h : Reaches env c₀ received (.ok () c))
    (hloop : handleExpected env fuel c = some d) : Reaches env c₀ received d ∧ Resting d := by
  induction fuel generalizing c with
  | zero =>
    cases hready : ready c with
    | true => simp [handleExpected, hready] at hloop
    | false =>
      rw [handleExpected_of_not_ready 0 hready, Option.some.injEq] at hloop
      subst hloop
      exact ⟨h, hready⟩
  | succ fuel ih =>
    cases hready : ready c with
    | true =>
      have hnext := Reaches.turned h hready
      rw [handleExpected_of_ready fuel hready] at hloop
      cases hturn : (turn env).run c with
      | ok u c' =>
        rw [hturn] at hnext hloop
        exact ih hnext hloop
      | error e c' =>
        rw [hturn] at hnext hloop
        simp only [Option.some.injEq] at hloop
        subst hloop
        exact ⟨hnext, trivial⟩
    | false =>
      rw [handleExpected_of_not_ready _ hready, Option.some.injEq] at hloop
      subst hloop
      exact ⟨h, hready⟩

/-- A delivery stays among the points of a run. -/
theorem reaches_dataReceived {env : Env D S} {c₀ : RFBClient D S} {received data : Bytes} {fuel : ℕ}
    {d d' : Delivery D S} (h : Reaches env c₀ received d) (hrest : Resting d)
    (hdata : dataReceived env fuel (client d) data = some d') :
    Reaches env c₀ (received ++ data) d' ∧ Resting d' := by
  unfold dataReceived at hdata
  split_ifs at hdata with habort
  · simp only [Option.some.injEq] at hdata
    subst hdata
    exact ⟨.dropped data h hrest habort, ready_of_aborted habort⟩
  · have hnext := Reaches.delivered data h hrest (by simpa using habort)
    split at hdata
    next u c' hdeliver =>
      rw [hdeliver] at hnext
      exact reaches_handleExpected hnext hdata
    next e c' hdeliver =>
      rw [hdeliver] at hnext
      simp only [Option.some.injEq] at hdata
      subst hdata
      exact ⟨hnext, trivial⟩

/-! ## Runs under a condition -/

/-- A client as a delivery finds it, before any handler is called. -/
def extend (c : RFBClient D S) (data : Bytes) : RFBClient D S :=
  { c with
    attrs := { c.attrs with tlsHandshakePending := false }
    packet := c.packet ++ data }

/-- A point of a run in which every handler call finds a client that is `good`. -/
inductive ReachesBy (good : RFBClient D S → Prop) (env : Env D S) (c₀ : RFBClient D S) :
    (received : Bytes) → Delivery D S → Prop
  | start : ReachesBy good env c₀ [] (.ok () c₀)
  | delivered {received : Bytes} {d : Delivery D S} (data : Bytes)
      (h : ReachesBy good env c₀ received d) (hrest : Resting d) (hlive : (client d).aborted = false)
      (hgood : good (extend (client d) data)) :
      ReachesBy good env c₀ (received ++ data) ((deliver env data).run (client d))
  | dropped {received : Bytes} {d : Delivery D S} (data : Bytes)
      (h : ReachesBy good env c₀ received d) (hrest : Resting d) (habort : (client d).aborted = true) :
      ReachesBy good env c₀ (received ++ data) (.ok () (client d))
  | turned {received : Bytes} {c : RFBClient D S} (h : ReachesBy good env c₀ received (.ok () c))
      (hready : ready c = true) (hgood : good c) :
      ReachesBy good env c₀ received ((turn env).run c)

/-- Such a run is a run. -/
theorem ReachesBy.reaches {good : RFBClient D S → Prop} {env : Env D S} {c₀ : RFBClient D S}
    {received : Bytes} {d : Delivery D S} (h : ReachesBy good env c₀ received d) :
    Reaches env c₀ received d := by
  induction h with
  | start => exact .start
  | delivered data _ hrest hlive _ ih => exact .delivered data ih hrest hlive
  | dropped data _ hrest habort ih => exact .dropped data ih hrest habort
  | turned _ hready _ ih => exact .turned ih hready

/-- The handler that the next turn of the loop calls, and the block it hands over. -/
def Hands (c : RFBClient D S) (e : Expected D S) (block : Block e.len) : Prop :=
  c.phase = .expecting e ∧ ∃ h : e.len ≤ c.packet.length, block = Block.ofPrefix e.len c.packet h

/-! ## Handlers, evaluated -/

@[simp] theorem run_emit (e : Event) (a : Attrs D S) :
    (Attrs.emit e).run a = .ok () { a with log := a.log ++ [e] } := rfl

@[simp] theorem run_write (what : Written) (data : Bytes) (a : Attrs D S) :
    (Attrs.write what data).run a = .ok () { a with log := a.log ++ [.wrote what data] } := rfl

@[simp] theorem run_loseConnection (a : Attrs D S) :
    Attrs.loseConnection.run a = .ok () { a with log := a.log ++ [.loseConnection] } := rfl

theorem run_onAttrs {α : Type} (m : Py (Attrs D S) α) (c : RFBClient D S) :
    (onAttrs m).run c = match m.run c.attrs with
      | .ok v a => .ok v { c with attrs := a }
      | .error e a => .error e { c with attrs := a } := rfl

@[simp] theorem run_expect (e : Expected D S) (c : RFBClient D S) :
    (expect e).run c = .ok () { c with phase := .expecting e } := rfl

theorem run_call (env : Env D S) (method : Callback) (a : Attrs D S) :
    (env.call method).run a = (env.callback method).run { a with log := a.log ++ [.called method] } :=
  rfl

variable {library : Library}
  {decoders : ℤ → Option (Decoder (D := D) (S := S) (baseCallback library))}

/-- The callbacks of the base class other than `vncRequestPassword` do nothing. -/
theorem run_call_base {method : Callback} (h : method ≠ .vncRequestPassword) (a : Attrs D S) :
    ((base library decoders).call method).run a =
      .ok () { a with log := a.log ++ [.called method] } := by
  cases method <;> first | rfl | exact absurd rfl h

theorem run_abortConnection (reason : String) (c : RFBClient D S) :
    (abortConnection (base library decoders) reason).run c =
      .ok () { c with
        aborted := true
        packet := []
        attrs := { c.attrs with
          log := c.attrs.log ++ [.called (.vncProtocolError reason), .loseConnection] } } := by
  simp [abortConnection, run_onAttrs, run_call_base]

end RFBClient

end VncDoTool
