import Mathlib.Data.Finset.Insert
import Mathlib.Data.Finset.Lattice.Lemmas
import SemanticLayer.Proofs.Registry

namespace SemanticLayer

-- The checks of scopes look at a source, which names two domains at most and cannot be formed where
-- there would be more. Here they are compared with all the domains that an expression reads.

-- The domains of the accesses and columns that stand in the scope of an expression. Of a navigation
-- this is where it starts, and a query counts as a domain of its own name.
def Expr.owners : Expr → Finset String
  | .literal _ => ∅
  | .access member _ => {member.domain}
  | .compose reference _ => reference.owners
  | .binary _ left right _ => left.owners ∪ right.owners
  | .countAll => ∅
  | .aggregate _ operand => operand.owners
  | .column domain _ _ => {domain}
  | .query nested => {nested.name}

-- The same as the query reads it that the expression is put into. A query among the operands is
-- closed and reads nothing of it; one that is navigated from counts.
def Expr.reads : Expr → Finset String
  | .literal _ => ∅
  | .access member _ => {member.domain}
  | .compose reference _ => reference.owners
  | .binary _ left right _ => left.reads ∪ right.reads
  | .countAll => ∅
  | .aggregate _ operand => operand.reads
  | .column domain _ _ => {domain}
  | .query _ => ∅

-- A source tells of all the domains that are read. A crossing is of two that differ.
inductive Source.Tells : Option Source → Finset String → Prop where
  | constant : Tells none ∅
  | single (name : String) : Tells (some (.domain name)) {name}
  | crossing : left ≠ right → Tells (some (.cross left right)) {left, right}

theorem union_tells {first second both : Option Source} {some more : Finset String}
    (one : Source.Tells first some) (two : Source.Tells second more)
    (united : Source.union first second = .ok both) : Source.Tells both (some ∪ more) := by
  cases one with
  | constant =>
    rw [Finset.empty_union]
    cases two <;> (cases united; constructor <;> assumption)
  | single name =>
    cases two with
    | constant =>
      cases united
      exact .single name
    | single other =>
      by_cases same : name = other
      · simp only [Source.union, same, ↓reduceIte] at united
        cases united
        rw [same, Finset.union_self]
        exact .single other
      · simp only [Source.union, Source.domain.injEq, same, ↓reduceIte] at united
        cases united
        exact .crossing same
    | crossing apart => simp [Source.union] at united
  | @crossing left right apart =>
    cases two with
    | constant =>
      cases united
      rw [Finset.union_empty]
      exact .crossing apart
    | single other => simp [Source.union] at united
    | crossing other =>
      simp only [Source.union] at united
      split at united
      · rename_i same
        cases same
        cases united
        rw [Finset.union_self]
        exact .crossing apart
      · cases united

theorem source_tells (expr : Expr) (built : expr.Built) : Source.Tells expr.source expr.owners := by
  fun_induction Expr.owners expr with
  | case1 value => exact .constant
  | case2 member side => exact .single member.domain
  | case3 reference composition ih => exact ih (compose_built built).1
  | case4 operator left right type one two =>
    obtain ⟨builtLeft, builtRight, _, both, united⟩ := binary_built built
    rw [Expr.source, united]
    exact union_tells (one builtLeft) (two builtRight) united
  | case5 => exact .constant
  | case6 function operand ih => exact ih (aggregate_built built).1
  | case7 domain name type => exact .single domain
  | case8 nested => exact .single nested.name

theorem enclosing_tells (expr : Expr) (built : expr.Built) (read : expr.enclosing = .ok scope) :
    Source.Tells scope expr.reads := by
  fun_induction Expr.reads expr generalizing scope with
  | case1 value =>
    cases read
    exact .constant
  | case2 member side =>
    cases read
    exact .single member.domain
  | case3 reference composition =>
    cases read
    exact source_tells reference (compose_built built).1
  | case4 operator left right type one two =>
    obtain ⟨builtLeft, builtRight, _⟩ := binary_built built
    obtain ⟨first, readLeft, read⟩ := bind_parts read
    obtain ⟨second, readRight, read⟩ := bind_parts read
    split at read
    · rename_i both united
      cases read
      exact union_tells (one builtLeft readLeft) (two builtRight readRight) united
    · cases read
    · rename_i other noDisagreement failed
      obtain ⟨l, r, same⟩ := union_failed failed
      exact absurd same (noDisagreement l r)
  | case5 =>
    cases read
    exact .constant
  | case6 function operand ih => exact ih (aggregate_built built).1 read
  | case7 domain name type =>
    cases read
    exact .single domain
  | case8 nested =>
    cases read
    exact .constant

theorem tells_inside (tells : Source.Tells source names) : Inside domain source ↔ names ⊆ {domain} := by
  unfold Inside
  cases tells with
  | constant => simp
  | single name => simp
  | crossing apart =>
    simp only [reduceCtorEq, Option.some.injEq, or_self, false_iff]
    intro both
    have near := Finset.mem_singleton.mp (both (Finset.mem_insert_self _ _))
    have far := Finset.mem_singleton.mp (both (Finset.mem_insert_of_mem (Finset.mem_singleton_self _)))
    exact apart (near.trans far.symm)

theorem tells_constant (tells : Source.Tells none names) : names = ∅ := by
  cases tells
  rfl

theorem tells_members (tells : Source.Tells (some source) names) (name : String) :
    name ∈ source.names ↔ name ∈ names := by
  cases tells <;> simp [Source.names]

-- What reads one domain only can always be looked at: its parts are constant or read this domain.
theorem reads_inside (expr : Expr) (built : expr.Built) (only : expr.reads ⊆ {domain}) :
    ∃ scope, expr.enclosing = .ok scope ∧ Inside domain scope := by
  fun_induction Expr.reads expr with
  | case4 operator left right type one two =>
    obtain ⟨builtLeft, builtRight, _⟩ := binary_built built
    obtain ⟨inLeft, inRight⟩ := Finset.union_subset_iff.mp only
    obtain ⟨first, readLeft, insideLeft⟩ := one builtLeft inLeft
    obtain ⟨second, readRight, insideRight⟩ := two builtRight inRight
    obtain ⟨both, united, inside⟩ := inside_union insideLeft insideRight
    exact ⟨both, by simp [Expr.enclosing, readLeft, readRight, united, bind, Except.bind], inside⟩
  | case6 function operand ih => exact ih (aggregate_built built).1 only
  | _ => exact ⟨_, rfl, (tells_inside (enclosing_tells _ built rfl)).mpr only⟩

theorem checkScope_reads (expr : Expr) (built : expr.Built) (domain : String) :
    expr.checkScope domain = .ok () ↔ expr.reads ⊆ {domain} := by
  rw [checkScope_inside]
  constructor
  · rintro ⟨scope, read, inside⟩
    exact (tells_inside (enclosing_tells expr built read)).mp inside
  · exact reads_inside expr built

theorem joins_owners (condition : Expr) (built : condition.Built) (owner target : String) :
    condition.Joins owner target ↔ condition.type = .boolean ∧ condition.owners = {owner, target} := by
  have tells := source_tells condition built
  unfold Expr.Joins
  refine and_congr_right fun _ => ?_
  constructor
  · rintro ⟨source, sourced, same⟩
    rw [sourced] at tells
    ext name
    rw [← tells_members tells name, same name]
    simp
  · intro same
    cases sourced : condition.source with
    | none =>
      rw [sourced] at tells
      exact absurd ((tells_constant tells).symm.trans same) (Finset.insert_ne_empty owner _).symm
    | some source =>
      rw [sourced] at tells
      refine ⟨source, rfl, fun name => ?_⟩
      rw [tells_members tells name, same]
      simp

theorem checkJoin_refused (boolean : condition.type = .boolean)
    (refused : checkJoin owner target condition ≠ .ok ()) :
    checkJoin owner target condition = .error (.conditionOutOfScope owner target condition.source) := by
  unfold checkJoin at refused ⊢
  rw [if_neg (not_not.mpr boolean)] at refused ⊢
  cases sourced : condition.source with
  | none => rfl
  | some source =>
    rw [sourced] at refused
    cases source <;>
      · dsimp only at refused ⊢
        split at refused
        · exact absurd rfl refused
        · rename_i apart
          rw [if_neg apart]

theorem checkJoin_owners (condition : Expr) (built : condition.Built) (owner target : String) :
    checkJoin owner target condition =
      if condition.type ≠ .boolean then .error (.conditionNotBoolean owner target condition.type)
      else if condition.owners = {owner, target} then .ok ()
      else .error (.conditionOutOfScope owner target condition.source) := by
  have decided := (checkJoin_iff owner target condition).trans
    (joins_owners condition built owner target)
  by_cases boolean : condition.type = .boolean
  · by_cases exactly : condition.owners = {owner, target}
    · rw [decided.mpr ⟨boolean, exactly⟩]
      simp [boolean, exactly]
    · have refused : checkJoin owner target condition ≠ .ok () :=
        fun passed => exactly (decided.mp passed).2
      rw [checkJoin_refused boolean refused]
      simp [boolean, exactly]
  · simp [checkJoin, boolean]

-- From a condition a reference or a relation is made exactly when it is BOOLEAN and reads the two
-- domains that it is to join, in whichever order: both of them and no other one. Where the two are
-- the same domain, it reads this one and no other. The first fault that counts is in the type.
theorem joins_decided (condition : Expr) (built : condition.Built) (owner target : String) :
    (∀ label table, Attribute.reference owner label target table condition =
      if condition.type ≠ .boolean then .error (.conditionNotBoolean owner target condition.type)
      else if condition.owners = {owner, target} then
        .ok ⟨owner, label, .reference target table condition⟩
      else .error (.conditionOutOfScope owner target condition.source)) ∧
    Relation.between owner target condition =
      if condition.type ≠ .boolean then .error (.conditionNotBoolean owner target condition.type)
      else if condition.owners = {owner, target} then .ok ⟨owner, target, condition⟩
      else .error (.conditionOutOfScope owner target condition.source) := by
  unfold Attribute.reference Relation.between
  rw [checkJoin_owners condition built]
  by_cases boolean : condition.type = .boolean
  · by_cases exactly : condition.owners = {owner, target}
    · simp [boolean, exactly, bind, Except.bind, pure, Except.pure]
    · simp [boolean, exactly, bind, Except.bind]
  · simp [boolean, bind, Except.bind]

namespace Fleet

def hired : Expr :=
  .binary .equals (.read "trucks" "driver_name" .string)
    (.read "drivers" "name" .string) .boolean

def driver : Attribute := ⟨"trucks", "driver", .reference "drivers" "drivers" hired⟩

def city : Expr :=
  .compose (.access driver .matching) (.read "drivers" "city" .string)

def sameCity : Expr := .binary .equals (.read "depots" "city" .string) city .boolean

theorem city_built : city.Built := by
  have linked : Expr.operation .equals (.read "trucks" "driver_name" .string)
      (.read "drivers" "name" .string) = .ok hired := rfl
  have hired_built : hired.Built := .operation (read_built _ _ _ _) (read_built _ _ _ _) linked
  have led : Attribute.reference "trucks" "driver" "drivers" "drivers" hired = .ok driver := rfl
  exact .composed (.access .matching (.reference hired_built led))
    (read_built "drivers" "city" .string .matching) rfl

theorem sameCity_built : sameCity.Built := by
  have compared : Expr.operation .equals (.read "depots" "city" .string) city =
      .ok sameCity := rfl
  exact .operation (read_built _ _ _ _) city_built compared

theorem depot_decided : sameCity.Built ∧ sameCity.owners = {"trucks", "depots"} ∧
    Attribute.reference "trucks" "depot" "depots" "yards" sameCity =
      .ok ⟨"trucks", "depot", .reference "depots" "yards" sameCity⟩ ∧
    Attribute.reference "trucks" "mate" "drivers" "drivers" sameCity =
      .error (.conditionOutOfScope "trucks" "drivers" (some (.cross "depots" "trucks"))) ∧
    Relation.between "depots" "depots" sameCity =
      .error (.conditionOutOfScope "depots" "depots" (some (.cross "depots" "trucks"))) ∧
    Relation.between "trucks" "drivers" city =
      .error (.conditionNotBoolean "trucks" "drivers" (.scalar .string)) := by
  have exactly : sameCity.owners = {"trucks", "depots"} := by decide
  have others : sameCity.owners ≠ {"trucks", "drivers"} := by decide
  have alone : sameCity.owners ≠ {"depots", "depots"} := by decide
  refine ⟨sameCity_built, exactly, ?_, ?_, ?_, ?_⟩
  · rw [(joins_decided sameCity sameCity_built "trucks" "depots").1, if_neg (by decide), if_pos exactly]
  · rw [(joins_decided sameCity sameCity_built "trucks" "drivers").1, if_neg (by decide), if_neg others]
    rfl
  · rw [(joins_decided sameCity sameCity_built "depots" "depots").2, if_neg (by decide), if_neg alone]
    rfl
  · exact (joins_decided city city_built "trucks" "drivers").2

end Fleet

-- A query takes an expression among its columns exactly when all that the expression reads of it
-- belongs to the domain that it is over, and as its filter exactly when the expression is BOOLEAN as
-- well.
theorem queries_scoped (q : Query) (expr : Expr) (built : expr.Built) :
    (∀ label, q.select label expr =
        .ok { q with projections := Query.place label expr q.projections } ↔
      expr.reads ⊆ {q.source}) ∧
    (∀ label, ¬ expr.reads ⊆ {q.source} →
      ∃ fault, q.select label expr = .error (.projectionOutOfScope q.name label fault)) ∧
    (q.setFilter expr = .ok { q with filter := some expr } ↔
      expr.type = .boolean ∧ expr.reads ⊆ {q.source}) ∧
    (expr.type = .boolean → ¬ expr.reads ⊆ {q.source} →
      ∃ fault, q.setFilter expr = .error (.filterOutOfScope q.name fault)) ∧
    (expr.type ≠ .boolean → q.setFilter expr = .error (.filterNotBoolean q.name expr.type)) := by
  have decided := checkScope_reads expr built q.source
  unfold Query.select Query.setFilter
  cases checked : expr.checkScope q.source with
  | ok =>
    have only := decided.mp checked
    simp only [only, not_true_eq_false, false_implies, implies_true, and_true, true_and]
    by_cases boolean : expr.type = .boolean <;> simp [boolean]
  | error fault =>
    have beyond : ¬ expr.reads ⊆ {q.source} := fun only => by
      cases (decided.mpr only).symm.trans checked
    by_cases boolean : expr.type = .boolean <;> simp [boolean, beyond]

namespace Fleet

def roster : Query :=
  ⟨"roster", "drivers", "drivers", [⟨"city", .read "drivers" "city" .string⟩], none⟩

def listed : Expr := .binary .isIn city (.query roster) .boolean

def rosterCity : Expr := .compose (.query roster) (.read "roster" "city" .string)

def report (source : String) : Query := .start "report" ⟨source, source, []⟩

theorem roster_built : roster.Built :=
  .select (.start "roster" ⟨"drivers", "drivers", []⟩)
    (read_built "drivers" "city" .string .matching) rfl

theorem report_scoped : listed.Built ∧ rosterCity.Built ∧
    (report "trucks").setFilter listed = .ok { report "trucks" with filter := some listed } ∧
    (∃ fault, (report "drivers").setFilter listed = .error (.filterOutOfScope "report" fault)) ∧
    (∃ fault, (report "trucks").select "city" rosterCity =
      .error (.projectionOutOfScope "report" "city" fault)) ∧
    (report "roster").select "city" rosterCity =
      .ok ⟨"report", "roster", "roster", [⟨"city", rosterCity⟩], none⟩ := by
  have asked : Expr.operation .isIn city (.query roster) = .ok listed := rfl
  have listed_built : listed.Built := .operation city_built (.query roster_built) asked
  have led : Expr.composed (.query roster) (.read "roster" "city" .string) =
      .ok rosterCity := rfl
  have rosterCity_built : rosterCity.Built := .composed (.query roster_built) (read_built _ _ _ _) led
  have trucks := queries_scoped (report "trucks") listed listed_built
  have drivers := queries_scoped (report "drivers") listed listed_built
  have away := queries_scoped (report "trucks") rosterCity rosterCity_built
  have home := queries_scoped (report "roster") rosterCity rosterCity_built
  refine ⟨listed_built, rosterCity_built, ?_, ?_, ?_, ?_⟩
  · exact trucks.2.2.1.mpr ⟨rfl, by decide⟩
  · exact drivers.2.2.2.1 rfl (by decide)
  · exact away.2.1 "city" (by decide)
  · exact (home.1 "city").mpr (by decide)

end Fleet

end SemanticLayer
