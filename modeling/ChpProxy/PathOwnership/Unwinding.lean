import ChpProxy.Lib.Footprint
import ChpProxy.PathOwnership.Publication

/-! Rules for programs that work in a directory nobody else changes, while cleaning up and
otherwise. While they clean up, a call that the volume allows succeeds. -/
namespace ChpProxy

open FileSystem Interaction Io Fallible

/-- A process, the directory that it works in and the path to that directory. -/
structure Site where
  process : Process FileIdentity
  directory : FileIdentity
  route : List (FileIdentity × String × FileIdentity)

abbrev Site.system (s : Site) := quiet s.process s.directory s.route

variable {s : Site} {α β : Type} {cleaning : Bool} {H : Footprint FileIdentity}

/-- The program as it runs while cleaning up, or as it is. -/
def during : Bool → Sys α → Sys α
  | true, p => unwind p
  | false, p => p

theorem unwind_bind (p : Sys β) (f : β → Sys α) :
    unwind (p.bind f) = (unwind p).bind fun b => unwind (f b) := by
  induction p with
  | done b => rfl
  | call r next ih =>
    show Program.call _ _ = Program.call _ _
    congr 1
    funext reply
    exact ih reply

theorem during_bind (p : Sys β) (f : β → Sys α) :
    during cleaning (p.bind f) = (during cleaning p).bind fun b => during cleaning (f b) := by
  cases cleaning with
  | false => rfl
  | true => exact unwind_bind p f

namespace Site

/-- From every world with the footprint `H` the program ends in one whose footprint is as `Q`
says. -/
def Ends (s : Site) (cleaning : Bool) (p : Sys α) (Q : α → Footprint FileIdentity → Prop)
    (H : Footprint FileIdentity) : Prop :=
  ∀ w, Holds s.directory H w → s.system.wp (fun _ => True) (during cleaning p)
    (fun a w => ∃ H', Holds s.directory H' w ∧ Q a H') w

/-- The program succeeds with `Ok`; only when it is not cleaning up may it also fail, with `Err`. -/
def Tries (s : Site) (cleaning : Bool) (p : Io α) (Err : Footprint FileIdentity → Prop)
    (Ok : α → Footprint FileIdentity → Prop) (H : Footprint FileIdentity) : Prop :=
  s.Ends cleaning p.run (fun r H' => match r with
    | .ok a => Ok a H'
    | .error _ => cleaning = false ∧ Err H') H

section Rules

variable {p : Sys β} {f : β → Sys α} {R : β → Footprint FileIdentity → Prop}
  {Q Q' : α → Footprint FileIdentity → Prop}

theorem stable_ends (a : α) :
    s.system.Stable fun w => ∃ H', Holds s.directory H' w ∧ Q a H' := by
  intro w b w' ⟨H', hw, hq⟩ hb
  exact ⟨H', stable_holds w b w' hw hb, hq⟩

theorem ends_done {a : α} (h : Q a H) : s.Ends cleaning (.done a) Q H := by
  have hdone : during cleaning (.done a : Sys α) = .done a := by cases cleaning <;> rfl
  intro w hw
  rw [hdone]
  exact System.wp_done (stable_ends a) ⟨H, hw, h⟩

theorem ends_mono {p : Sys α} (h : s.Ends cleaning p Q H) (hq : ∀ a H, Q a H → Q' a H) :
    s.Ends cleaning p Q' H := by
  intro w hw
  apply System.wp_mono (h w hw)
  intro a w ⟨H', hw, ha⟩
  exact ⟨H', hw, hq a H' ha⟩

theorem ends_bind (h : s.Ends cleaning p R H)
    (hf : ∀ b H, R b H → s.Ends cleaning (f b) Q H) : s.Ends cleaning (p.bind f) Q H := by
  intro w hw
  rw [during_bind]
  apply System.wp_bind (h w hw)
  intro b w ⟨H', hw, hb⟩
  exact hf b H' hb w hw

theorem ends_unwind {p : Sys α} (h : s.Ends true p Q H) : s.Ends false (unwind p) Q H := h

/-- A query replies with what it finds; when not cleaning up it may also fail. -/
theorem ends_ask {q : Query FileIdentity} {next : Call.Reply (.query q) → Sys α}
    (h : ∀ w fate reply, Holds s.directory H w →
      q.find s.process w.volume fate = some reply → s.Ends cleaning (next reply) Q H)
    (herr : cleaning = false → ∀ e, e ≠ .nodata → s.Ends cleaning (next (.error e)) Q H) :
    s.Ends cleaning (.call ⟨.query q, false⟩ next) Q H := by
  have hcall : during cleaning (.call ⟨.query q, false⟩ next : Sys α) =
      .call ⟨.query q, cleaning⟩ fun reply => during cleaning (next reply) := by
    cases cleaning <;> rfl
  intro w hw
  rw [hcall]
  apply System.wp_call stable_holds hw
  intro w fate w' reply hw ha
  have hanswer : (kernel s.process s.directory true).answer w ⟨.query q, cleaning⟩ fate =
    some (w', reply) := ha
  obtain ⟨rfl, hreply⟩ := answer_query hanswer
  refine ⟨trivial, ?_⟩
  rcases hreply with ⟨e, rfl, hsteady⟩ | hfind
  · obtain ⟨hc, hdata⟩ := hsteady rfl
    exact herr hc e hdata _ hw
  · exact h _ fate reply hw hfind _ hw

/-- An update is performed, or fails; when not cleaning up it may fail anyway. -/
theorem ends_command {u : Update FileIdentity} {next : Call.Reply (.update u) → Sys α}
    (h : ∀ w fate v events, Holds s.directory H w →
      u.perform s.process w.volume fate = some (.ok (v, events)) →
      ∃ H', Holds s.directory H' ⟨v, w.log ++ events⟩ ∧ s.Ends cleaning (next (.ok ())) Q H')
    (hfail : ∀ w fate e, Holds s.directory H w →
      u.perform s.process w.volume fate = some (.error e) →
      s.Ends cleaning (next (.error e)) Q H)
    (herr : cleaning = false → ∀ e, s.Ends cleaning (next (.error e)) Q H) :
    s.Ends cleaning (.call ⟨.update u, false⟩ next) Q H := by
  have hcall : during cleaning (.call ⟨.update u, false⟩ next : Sys α) =
      .call ⟨.update u, cleaning⟩ fun reply => during cleaning (next reply) := by
    cases cleaning <;> rfl
  intro w hw
  rw [hcall]
  apply System.wp_call stable_holds hw
  intro w fate w' reply hw ha
  have hanswer : (kernel s.process s.directory true).answer w ⟨.update u, cleaning⟩ fate =
    some (w', reply) := ha
  refine ⟨trivial, ?_⟩
  rcases answer_update hanswer with
    ⟨e, rfl, rfl, hsteady | hperform⟩ | ⟨v, events, hperform, rfl, rfl⟩
  · exact herr (hsteady rfl) e _ hw
  · exact hfail _ fate e hw hperform _ hw
  · obtain ⟨H', hw', hnext⟩ := h w fate v events hw hperform
    exact hnext _ hw'

end Rules

section Tries

variable {p : Io β} {f : β → Io α} {Err Err' : Footprint FileIdentity → Prop}
  {R R' : β → Footprint FileIdentity → Prop} {Ok : α → Footprint FileIdentity → Prop}

theorem tries_pure {a : α} (h : Ok a H) : s.Tries cleaning (pure a) Err Ok H := ends_done h

theorem tries_throw {e : IoError} (h : Err H) : s.Tries false (throw e : Io α) Err Ok H :=
  ends_done ⟨rfl, h⟩

theorem tries_mono (h : s.Tries cleaning p Err R H) (herr : ∀ H, Err H → Err' H)
    (hok : ∀ b H, R b H → R' b H) : s.Tries cleaning p Err' R' H := by
  apply ends_mono h
  intro r H' hr
  cases r with
  | ok b => exact hok b H' hr
  | error e => exact ⟨hr.1, herr H' hr.2⟩

theorem tries_bind (h : s.Tries cleaning p Err R H)
    (hf : ∀ b H, R b H → s.Tries cleaning (f b) Err Ok H) :
    s.Tries cleaning (p >>= f) Err Ok H := by
  apply ends_bind h
  intro r H' hr
  cases r with
  | ok b => exact hf b H' hr
  | error e => exact ends_done hr

theorem tries_then (h : s.Tries cleaning p Err R H) (herr : ∀ H, Err H → Err' H)
    (hf : ∀ b H, R b H → s.Tries cleaning (f b) Err' Ok H) :
    s.Tries cleaning (p >>= f) Err' Ok H :=
  tries_bind (tries_mono h herr fun _ _ hb => hb) hf

theorem ends_run {f : Except IoError β → Sys α} {Q : α → Footprint FileIdentity → Prop}
    (h : s.Tries true p Err R H) (hf : ∀ b H, R b H → s.Ends true (f (.ok b)) Q H) :
    s.Ends true (p.run.bind f) Q H := by
  apply ends_bind h
  intro r H' hr
  cases r with
  | ok b => exact hf b H' hr
  | error e => cases hr.1

theorem tries_result {f : Except IoError β → Io α} (h : s.Tries cleaning p Err R H)
    (herr : cleaning = false → ∀ e H, Err H → s.Tries cleaning (f (.error e)) Err' Ok H)
    (hok : ∀ b H, R b H → s.Tries cleaning (f (.ok b)) Err' Ok H) :
    s.Tries cleaning (p.result >>= f) Err' Ok H := by
  have hresult : s.Ends cleaning p.result.run (fun r H' => ∃ r', r = .ok r' ∧ match r' with
      | .ok b => R b H'
      | .error _ => cleaning = false ∧ Err H') H := by
    apply ends_bind h
    intro r H' hr
    exact ends_done ⟨r, rfl, hr⟩
  apply ends_bind hresult
  intro r H' ⟨r', he, hr⟩
  subst he
  cases r' with
  | ok b => exact hok b H' hr
  | error e => exact herr hr.1 e H' hr.2

theorem tries_lift {p : Sys β} {f : β → Io α} (h : s.Ends cleaning p R H)
    (hf : ∀ b H, R b H → s.Tries cleaning (f b) Err Ok H) :
    s.Tries cleaning ((ExceptT.lift p : Io β) >>= f) Err Ok H := by
  have hlift : s.Ends cleaning (ExceptT.lift p : Io β).run
      (fun r H' => ∃ b, r = .ok b ∧ R b H') H := by
    apply ends_bind h
    intro b H' hb
    exact ends_done ⟨b, rfl, hb⟩
  apply ends_bind hlift
  intro r H' ⟨b, he, hb⟩
  subst he
  exact hf b H' hb

theorem tries_onError {cleanup : Sys Unit} (Err : Footprint FileIdentity → Prop)
    (h : s.Tries cleaning p Err R H)
    (herr : cleaning = false → ∀ H, Err H → s.Ends false cleanup (fun _ => Err') H) :
    s.Tries cleaning (p.onError cleanup) Err' R H := by
  apply ends_bind h
  intro r H' hr
  cases r with
  | ok b => exact ends_done hr
  | error e =>
    obtain ⟨rfl, hr⟩ := hr
    apply ends_bind (herr rfl H' hr)
    intro _ H'' hr
    exact ends_done ⟨rfl, hr⟩

theorem tries_thenDrop {cleanup : Sys Unit} (Err : Footprint FileIdentity → Prop)
    (R : β → Footprint FileIdentity → Prop) (h : s.Tries false p Err R H)
    (herr : ∀ H, Err H → s.Ends false cleanup (fun _ => Err') H)
    (hok : ∀ b H, R b H → s.Ends false cleanup (fun _ => R' b) H) :
    s.Tries false (p.thenDrop cleanup) Err' R' H := by
  apply ends_bind h
  intro r H' hr
  cases r with
  | ok b =>
    apply ends_bind (hok b H' hr)
    intro _ H'' hr
    exact ends_done hr
  | error e =>
    apply ends_bind (herr H' hr.2)
    intro _ H'' hr
    exact ends_done ⟨rfl, hr⟩

theorem tries_ensure {c : Bool} {e : IoError} (h : cleaning = true → c = true) :
    s.Tries cleaning (ensure c e) (· = H) (fun _ H' => H' = H ∧ c = true) H := by
  cases c with
  | true => exact ends_done ⟨rfl, rfl⟩
  | false =>
    have hcleaning : cleaning = false := by
      cases cleaning with
      | false => rfl
      | true => cases h rfl
    exact ends_done ⟨hcleaning, rfl⟩

theorem tries_query {q : Query FileIdentity} {value : q.Value}
    (h : ∀ w fate, Holds s.directory H w → q.find s.process w.volume fate = some (.ok value)) :
    s.Tries cleaning (query q) (· = H) (fun reply H' => reply = value ∧ H' = H) H := by
  apply ends_ask
  · intro w fate reply hw hfind
    rw [h w fate hw] at hfind
    obtain rfl := Option.some.inj hfind
    exact ends_done ⟨rfl, rfl⟩
  · intro hc e _
    exact ends_done ⟨hc, rfl⟩

/-- An update is performed, or changes nothing; while cleaning up the volume must allow it. -/
theorem tries_command {u : Update FileIdentity} {Ok : Unit → Footprint FileIdentity → Prop}
    (h : ∀ w fate v events, Holds s.directory H w →
      u.perform s.process w.volume fate = some (.ok (v, events)) →
      ∃ H', Holds s.directory H' ⟨v, w.log ++ events⟩ ∧ Ok () H')
    (hallow : cleaning = true → ∀ w fate e, Holds s.directory H w →
      u.perform s.process w.volume fate ≠ some (.error e)) :
    s.Tries cleaning (update u) (· = H) Ok H := by
  apply ends_command
  · intro w fate v events hw hperform
    obtain ⟨H', hholds, hok⟩ := h w fate v events hw hperform
    exact ⟨H', hholds, ends_done hok⟩
  · intro w fate e hw hperform
    have hcleaning : cleaning = false := by
      cases cleaning with
      | false => rfl
      | true => exact absurd hperform (hallow rfl w fate e hw)
    exact ends_done ⟨hcleaning, rfl⟩
  · intro hc e
    exact ends_done ⟨hc, rfl⟩

theorem tries_update {u : Update FileIdentity} {H' : Footprint FileIdentity}
    (h : Allows s.process s.directory u H H') :
    s.Tries cleaning (update u) (· = H) (fun _ G => G = H') H := by
  apply tries_command
  · intro w fate v events hw hperform
    obtain ⟨v', events', hperform', hholds⟩ := h w fate hw
    rw [hperform'] at hperform
    cases hperform
    exact ⟨H', hholds, rfl⟩
  · intro _ w fate e hw hperform
    obtain ⟨v', events', hperform', -⟩ := h w fate hw
    rw [hperform'] at hperform
    cases hperform

theorem tries_queries (h : p.run.Calls Request.isQuery) :
    s.Tries false p (· = H) (fun _ H' => H' = H) H := by
  intro w hw
  have hkeep : ∀ w (r : Request FileIdentity) fate w' reply, r.isQuery →
      s.system.answer w r fate = some (w', reply) → w' = w := by
    intro w r fate w' reply hr ha
    have hanswer : (kernel s.process s.directory true).answer w r fate = some (w', reply) := ha
    exact answer_isQuery hr hanswer
  apply System.wp_mono (System.wp_calls h hkeep stable_holds (fun _ _ => trivial) hw)
  intro r w hw
  refine ⟨H, hw, ?_⟩
  cases r with
  | ok b => rfl
  | error e => exact ⟨rfl, rfl⟩

end Tries

end Site

end ChpProxy
