import Mathlib.Logic.Relation
import SemanticLayer.Proofs.Faults
import SemanticLayer.Proofs.JoinOrder
import SemanticLayer.Proofs.Mentions

namespace SemanticLayer

structure Loop where
  position : Nat
  known : List Leg

inductive Loop.Turn (loop : Loop) : Loop → Prop where
  | pass : loop.known[loop.position]? = some leg →
      Turn loop ⟨loop.position + 1, leg.onward.foldl enlist loop.known⟩

def Query.loop (q : Query) : Loop := ⟨0, q.outset.foldl enlist []⟩

inductive Task where
  | generate (q : Query)
  | render (expr : Expr)
  | navigate (reference : Expr)

namespace Task

inductive Calls : Task → Task → Prop where
  | reading : Query.Tours q whole → reading ∈ q.readings whole →
      Calls (.generate q) (.render reading.expr)
  | definition : Calls (.render (.access ⟨domain, name, .value expr⟩ side)) (.render expr)
  | reference : Calls (.render (.compose reference composition)) (.navigate reference)
  | composition : Calls (.render (.compose reference composition)) (.render composition)
  | left : Calls (.render (.binary operator left right type)) (.render left)
  | right : Calls (.render (.binary operator left right type)) (.render right)
  | operand : Calls (.render (.aggregate function operand)) (.render operand)
  | nested : Calls (.render (.query q)) (.generate q)
  | first : Calls (.navigate (.compose reference composition)) (.navigate reference)
  | second : Calls (.navigate (.compose reference composition)) (.navigate composition)

noncomputable def size : Task → Nat
  | .generate q => sizeOf q
  | .render expr => sizeOf expr
  | .navigate reference => sizeOf reference

theorem calls_smaller (calls : Calls caller callee) : callee.size < caller.size := by
  cases calls with
  | reading tours member => exact readings_smaller tours member
  | definition =>
    simp only [size, Expr.access.sizeOf_spec, Attribute.mk.sizeOf_spec, Definition.value.sizeOf_spec]
    omega
  | reference | composition | first | second =>
    simp only [size, Expr.compose.sizeOf_spec]
    omega
  | left | right =>
    simp only [size, Expr.binary.sizeOf_spec]
    omega
  | operand =>
    simp only [size, Expr.aggregate.sizeOf_spec]
    omega
  | nested =>
    simp only [size, Expr.query.sizeOf_spec]
    omega

abbrev Reaches : Task → Task → Prop := Relation.ReflTransGen Calls

theorem queries_reached (expr : Expr) (member : r ∈ expr.queries) :
    Reaches (.render expr) (.generate r) := by
  fun_induction Expr.queries expr with
  | case1 domain name expr side ih => exact .head .definition (ih member)
  | case2 reference composition ih => exact .head .composition (ih member)
  | case3 operator left right type one two =>
    rcases List.mem_append.mp member with inLeft | inRight
    · exact .head .left (one inLeft)
    · exact .head .right (two inRight)
  | case4 function operand ih => exact .head .operand (ih member)
  | case5 nested =>
    cases List.mem_singleton.mp member
    exact .single .nested
  | case6 => cases member

theorem within_reached (within : Query.Within q r) : Reaches (.generate q) (.generate r) := by
  induction within with
  | self => exact .refl
  | deeper tours reading nested _ ih =>
    exact .head (.reading tours reading) ((queries_reached _ nested).trans ih)

def Covers (r : Query) : Task → Prop
  | .generate q => q.Within r
  | .render expr => ∃ nested ∈ expr.queries, nested.Within r
  | .navigate _ => False

theorem calls_cover (calls : Calls caller callee) (covers : callee.Covers r) :
    caller.Covers r := by
  cases calls with
  | reading tours member =>
    obtain ⟨nested, inside, within⟩ := covers
    exact .deeper tours member inside within
  | definition | composition | operand => exact covers
  | left =>
    obtain ⟨nested, inside, within⟩ := covers
    exact ⟨nested, List.mem_append_left _ inside, within⟩
  | right =>
    obtain ⟨nested, inside, within⟩ := covers
    exact ⟨nested, List.mem_append_right _ inside, within⟩
  | nested => exact ⟨_, List.mem_singleton_self _, covers⟩
  | reference | first | second => exact covers.elim

theorem reaches_iff (q r : Query) : Reaches (.generate q) (.generate r) ↔ q.Within r := by
  refine ⟨fun reaches => ?_, within_reached⟩
  have covers : Covers r (.generate r) := .self
  suffices whole : ∀ task, Reaches task (.generate r) → task.Covers r from whole _ reaches
  intro task reached
  induction reached using Relation.ReflTransGen.head_induction_on with
  | refl => exact covers
  | head calls _ ih => exact calls_cover calls ih

end Task

theorem calls_end : WellFounded fun callee caller => Task.Calls caller callee :=
  Subrelation.wf Task.calls_smaller (InvImage.wf Task.size Nat.lt_wfRel.wf)

-- What the legs that are still to be passed can add to the list.
def Loop.ahead (loop : Loop) : Nat := Leg.totalWeight (loop.known.drop loop.position)

theorem turn_lighter (turn : Loop.Turn loop next) : next.ahead < loop.ahead := by
  cases turn with
  | pass found => exact passed_lighter found

theorem turns_end : WellFounded fun next loop => Loop.Turn loop next :=
  Subrelation.wf turn_lighter (InvImage.wf Loop.ahead Nat.lt_wfRel.wf)

abbrev Loop.Leads : Loop → Loop → Prop := Relation.ReflTransGen Loop.Turn

theorem passed_inside {known : List Leg} (found : known[position]? = some leg) :
    position + 1 ≤ (leg.onward.foldl enlist known).length := by
  obtain ⟨bound, _⟩ := List.getElem?_eq_some_iff.mp found
  exact Nat.le_trans bound (enlist_extends leg.onward known).length_le

theorem tour_leads (tour : Tour position known whole) (inside : position ≤ known.length) :
    Loop.Leads ⟨position, known⟩ ⟨whole.length, whole⟩ := by
  induction tour with
  | finish past =>
    cases Nat.le_antisymm inside past
    exact .refl
  | visit found _ ih => exact .head (.pass found) (ih (passed_inside found))

-- The loop has one way to go, and wherever it is on this way, what is left of the tour lies ahead.
theorem leads_tour (leads : Loop.Leads start loop) (tour : Tour start.position start.known whole)
    (inside : start.position ≤ start.known.length) :
    Tour loop.position loop.known whole ∧ loop.position ≤ loop.known.length := by
  induction leads with
  | refl => exact ⟨tour, inside⟩
  | tail _ turn ih =>
    obtain ⟨ahead, here⟩ := ih
    cases turn with
    | pass found =>
      cases ahead with
      | finish past => simp [List.getElem?_eq_none past] at found
      | visit found' rest =>
        cases found.symm.trans found'
        exact ⟨rest, passed_inside found⟩

theorem tour_bounded (tour : Tour position known whole) (inside : position ≤ known.length) :
    whole.length ≤ position + Leg.totalWeight (known.drop position) := by
  induction tour with
  | finish past => exact Nat.le_trans past (Nat.le_add_right _ _)
  | visit found _ ih =>
    have rest := ih (passed_inside found)
    have lighter := passed_lighter found
    omega

theorem tours_bounded (tours : Query.Tours q whole) : whole.length ≤ Leg.totalWeight q.outset := by
  have bounded := tour_bounded tours (Nat.zero_le _)
  have added := enlist_weight q.outset [] (Nat.le_refl 0)
  simp only [List.drop_zero, Leg.totalWeight, Nat.zero_add] at bounded added
  exact Nat.le_trans bounded added

def Query.Comes (q : Query) (whole : List Leg) (n : Nat) : Prop :=
  (∃ s m, q.statement n = .ok (s, m) ∧ q.sqlFrom n = .ok (s.text, m) ∧ q.FromTour whole s) ∨
    ∃ error, q.sqlFrom n = .error error ∧ Breaks (q.readings whole) error

theorem sqlFrom_comes (tours : Query.Tours q whole) (n : Nat) : q.Comes whole n := by
  cases ran : q.sqlFrom n with
  | error error => exact .inr ⟨error, ran, plan_breaks tours (sqlFrom_failed ran)⟩
  | ok written =>
    obtain ⟨⟨s, m⟩, made, same⟩ := bind_parts ran
    cases same
    obtain ⟨other, tour⟩ := statement_tour made
    cases tour.only whole tours
    exact .inl ⟨s, m, made, ran, tour⟩

-- The calls that generation makes of itself do not go on for ever, and they come to the queries
-- inside and to no others. In each of these the loop over the joins goes on to the end of one list,
-- which has no path twice and no more legs than the references of the query hold in their conditions.
theorem generation_ends (q : Query) :
    Acc (fun callee caller => Task.Calls caller callee) (.generate q) ∧
      (∀ r, Task.Reaches (.generate q) (.generate r) ↔ q.Within r) ∧
      ∀ r, q.Within r → Acc (fun next loop => Loop.Turn loop next) r.loop ∧
        ∃ whole, r.Tours whole ∧ (r.paths whole).Nodup ∧
          whole.length ≤ Leg.totalWeight r.outset ∧
          (∀ loop, Loop.Leads r.loop loop →
            loop.known <+: whole ∧ Loop.Leads loop ⟨whole.length, whole⟩) ∧
          ∀ n, r.Comes whole n := by
  refine ⟨calls_end.apply _, Task.reaches_iff q, ?_⟩
  intro r _
  obtain ⟨whole, tours⟩ := tours_exist r
  refine ⟨turns_end.apply _, whole, tours, paths_distinct tours, tours_bounded tours, ?_,
    sqlFrom_comes tours⟩
  intro loop leads
  obtain ⟨rest, inside⟩ := leads_tour leads tours (Nat.zero_le _)
  exact ⟨tour_extends rest, tour_leads rest inside⟩

end SemanticLayer
