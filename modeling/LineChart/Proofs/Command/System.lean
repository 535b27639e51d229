import LineChart.Command.System

namespace LineChart.Command

/-! ## Actions one after the other -/

section Actions

variable {ε ε' α β : Type} {p p' : Progress}

theorem run_adapt {x : ExceptT ε (StateM Progress) α} {result : Except ε α} (f : ε → ε')
    (h : x.run.run p = (result, p')) : (x.adapt f).run.run p = (result.mapError f, p') := by
  have hmap : (x.adapt f).run = Except.mapError f <$> x.run := rfl
  rw [hmap, StateT.run_map, h]
  rfl

theorem run_bind_ok {x : ExceptT ε (StateM Progress) α} {a : α} (h : x.run.run p = (.ok a, p'))
    (f : α → ExceptT ε (StateM Progress) β) : (x >>= f).run.run p = (f a).run.run p' := by
  rw [ExceptT.run_bind, StateT.run_bind, h]
  rfl

theorem run_bind_error {x : ExceptT ε (StateM Progress) α} {e : ε}
    (h : x.run.run p = (.error e, p')) (f : α → ExceptT ε (StateM Progress) β) :
    (x >>= f).run.run p = (.error e, p') := by
  rw [ExceptT.run_bind, StateT.run_bind, h]
  rfl

end Actions

/-! ## What becomes of a request -/

section Requests

variable {α : Type} {refusals : Refusals} {r : Request} {p p' : Progress}
  {act : Progress → Except SystemFault (α × Progress)}

theorem run_meet : (refusals.meet r act).run.run p = refusals.meet r act p := rfl

theorem meet_of_refused {cause : SystemFault} (h : refusals r = some cause) :
    (refusals.meet r act).run.run p = (.error cause, p) := by
  rw [run_meet, Refusals.meet, h]

theorem meet_of_ok {a : α} (hright : refusals r = none) (h : act p = .ok (a, p')) :
    (refusals.meet r act).run.run p = (.ok a, p') := by
  rw [run_meet, Refusals.meet, hright]
  simp only [h]

theorem meet_of_error {cause : SystemFault} (hright : refusals r = none)
    (h : act p = .error cause) : (refusals.meet r act).run.run p = (.error cause, p) := by
  rw [run_meet, Refusals.meet, hright]
  simp only [h]

end Requests

/-! ## What the services do -/

section Services

variable {ε β : Type} {s : Surroundings} {refusals : Refusals} {p : Progress}

theorem services_readStdin :
    (s.services refusals).readStdin = refusals.meet .readStdin fun p => .ok (s.stdin, p) := rfl

theorem services_writeStdout (text : String) :
    (s.services refusals).writeStdout text =
      refusals.meet .writeStdout fun p => .ok ((), { p with stdout := p.stdout ++ text }) := rfl

theorem run_tell_bind (events : List Event) (f : Unit → ExceptT ε (StateM Progress) β) :
    (((s.services refusals).tell events : ExceptT ε (StateM Progress) Unit) >>= f).run.run p =
      (f ()).run.run { p with events := p.events ++ events } := rfl

theorem run_stamp_bind (f : String → ExceptT ε (StateM Progress) β) :
    (((s.services refusals).stamp : ExceptT ε (StateM Progress) String) >>= f).run.run p =
      (f s.stamp).run.run p := rfl

end Services

end LineChart.Command
