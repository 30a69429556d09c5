import SemanticLayer.Proofs.Settling

namespace SemanticLayer

-- The domain and the query so far, or the first error of a step.
abbrev Latch := Except Error (Domain × Query)

namespace Latch

def start (m : Model) (name domain : String) : Latch := do
  let d ← m.lookup domain
  pure (d, .start name d)

def apply (m : Model) (latch : Latch) (step : Query.Step) : Latch :=
  match latch with
  | .ok (d, q) => (q.step m d step).map (d, ·)
  | .error error => .error error

end Latch

-- Each expression is read just before its step. What cannot be read ends everything at once, whatever
-- error has been kept; only what is kept when all has been read is told.
def Descriptor.assemble (d : Descriptor) (m : Model) : Except Error Query := do
  let mut latch := Latch.start m d.name d.source
  for p in d.projections do
    latch := latch.apply m (← p.step)
  if let some condition := d.filter then
    latch := latch.apply m (← condition.restriction)
  latch.map (·.2)

namespace Latch

variable {m : Model}

theorem error_stays (steps : List Query.Step) (error : Error) :
    steps.foldl (apply m) (.error error) = .error error := by
  induction steps with
  | nil => rfl
  | cons step rest ih => exact ih

theorem steps_latched (steps : List Query.Step) (d : Domain) (q : Query) :
    steps.foldl (apply m) (.ok (d, q)) = (steps.foldlM (Query.step m d) q).map (d, ·) := by
  induction steps generalizing q with
  | nil => rfl
  | cons step rest ih =>
    rw [List.foldl_cons, List.foldlM_cons, apply]
    cases q.step m d step with
    | ok next => exact ih next
    | error error => exact error_stays rest error

theorem reading_apart {α : Type} (read : α → Except Error Query.Step) (items : List α)
    (latch : Latch) :
    items.foldlM (fun latch item => apply m latch <$> read item) latch =
      items.mapM read >>= fun steps => pure (steps.foldl (apply m) latch) := by
  induction items generalizing latch with
  | nil => rfl
  | cons item rest ih =>
    rw [List.foldlM_cons, List.mapM_cons]
    cases read item with
    | error => rfl
    | ok step =>
      change List.foldlM _ (latch.apply m step) rest = _
      rw [ih]
      cases rest.mapM read <;> rfl

theorem start_steps (name domain : String) (steps : List Query.Step) :
    (steps.foldl (apply m) (start m name domain)).map (·.2) = m.query name domain steps := by
  unfold start Model.query
  cases m.lookup domain with
  | error error =>
    change (steps.foldl (apply m) (.error error)).map (·.2) = _
    rw [error_stays]
    rfl
  | ok d =>
    change (steps.foldl (apply m) (.ok (d, .start name d))).map (·.2) = Query.build m name d steps
    rw [steps_latched, Query.build]
    cases steps.foldlM (Query.step m d) (.start name d) <;> rfl

end Latch

theorem assemble_query (m : Model) (d : Descriptor) : d.assemble m = d.query m := by
  obtain ⟨name, source, projections, filter⟩ := d
  have whole (steps : List Query.Step) := Latch.start_steps (m := m) name source steps
  simp only [Descriptor.assemble, List.forIn_yield_eq_foldlM, bind_pure_comp, Latch.reading_apart]
  change _ = (projections.mapM ProjectionDescriptor.step >>= fun columns =>
    filter.toList.mapM ExprDescriptor.restriction >>= fun restrictions =>
      pure (columns ++ restrictions)) >>= m.query name source
  cases projections.mapM ProjectionDescriptor.step with
  | error => rfl
  | ok columns =>
    cases filter with
    | none =>
      change _ = m.query name source (columns ++ [])
      rw [← whole, List.append_nil]
      rfl
    | some condition =>
      change ExprDescriptor.restriction condition >>= _ =
        (ExprDescriptor.restriction condition >>= fun step => pure [step]) >>= _ >>= _
      cases condition.restriction with
      | error => rfl
      | ok step =>
        change _ = m.query name source (columns ++ [step])
        rw [← whole, List.foldl_append]
        rfl

end SemanticLayer
