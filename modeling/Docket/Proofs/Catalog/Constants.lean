import Docket.Catalog.Basic
import Docket.Proofs.Query.Members

/-! Constants as the formulas of a catalog's queries see them. A list of constants gives a name the
value of the last one that has it. What the queries share stands behind the catalog's own list, so of
a name that both have, the queries decide the value; and every query sees the same. -/
namespace Docket
open Formula

namespace Constant

/-- The value of the last constant of a name. -/
def latest? (cs : List Constant) (name : String) : Option Float :=
  (cs.reverse.find? (·.name = name)).map (·.value)

theorem latest?_append (cs ds : List Constant) (name : String) :
    latest? (cs ++ ds) name = (latest? ds name).or (latest? cs name) := by
  rw [latest?, List.reverse_append, List.find?_append, Option.map_or]
  rfl

theorem latest?_cons (c : Constant) (cs : List Constant) (name : String) :
    latest? (c :: cs) name =
      (latest? cs name).or (if name = c.name then some c.value else none) := by
  rw [← List.singleton_append, latest?_append]
  congr 1
  by_cases same : name = c.name
  · simp [latest?, same]
  · simp [latest?, same, Ne.symm same]

theorem latest?_of_mem {cs : List Constant} {c : Constant} (known : c ∈ cs) :
    ∃ x, latest? cs c.name = some x := by
  have found : (cs.reverse.find? (·.name = c.name)).isSome := by
    rw [List.find?_isSome]
    exact ⟨c, List.mem_reverse.mpr known, by simp⟩
  obtain ⟨d, last⟩ := Option.isSome_iff_exists.mp found
  exact ⟨d.value, by rw [latest?, last, Option.map_some]⟩

/-- Names with the values of constants, given one after the other. -/
def insertAll (ns : Names) (cs : List Constant) : Names :=
  cs.foldl (fun ns c => ns.insert c.name c.value) ns

theorem get?_insertAll (cs : List Constant) (ns : Names) (name : String) :
    (insertAll ns cs).get? name = (latest? cs name).or (ns.get? name) := by
  induction cs generalizing ns with
  | nil => rfl
  | cons c cs ih =>
    have step : insertAll ns (c :: cs) = insertAll (ns.insert c.name c.value) cs := rfl
    rw [step, ih, Names.get?_insert, latest?_cons, Option.or_assoc]
    split <;> rfl

theorem get?_insertAll_empty (cs : List Constant) (name : String) :
    (insertAll .empty cs).get? name = latest? cs name := by
  have nothing : Names.empty.get? name = none := rfl
  rw [get?_insertAll, nothing, Option.or_none]

end Constant

namespace Query

/-- The constants that a query keeps to itself. -/
def ownConstants (q : Query) : List Constant := q.constants.filter (·.scope = .own)

theorem insertNew_of_known {ns : Names} {name : String} (known : ∃ x, ns.get? name = some x)
    (x : Float) : ns.insertNew name x = ns := by
  obtain ⟨y, found⟩ := known
  rw [Names.insertNew, found]

/-- A query gives the names it keeps to itself to the parameters. Fields and constants stay, if the
names it shares are known already. -/
theorem foldl_declare (cs : List Constant) (i : Inputs)
    (known : ∀ c ∈ cs, c.scope = .shared → ∃ x, i.constants.get? c.name = some x) :
    cs.foldl declare i =
      ⟨i.fields, Constant.insertAll i.parameters (cs.filter (·.scope = .own)), i.constants⟩ := by
  induction cs generalizing i with
  | nil => rfl
  | cons c cs ih =>
    have behind := fun d (member : d ∈ cs) => known d (List.mem_cons_of_mem c member)
    cases scope : c.scope with
    | own =>
      have declared : declare i c =
          { i with parameters := i.parameters.insert c.name c.value } := by
        rw [declare, scope]
      rw [List.foldl_cons, declared, ih ⟨_, i.parameters.insert c.name c.value, _⟩ behind,
        List.filter_cons_of_pos (by simp [scope])]
      rfl
    | shared =>
      have declared : declare i c = i := by
        rw [declare, scope]
        simp only [insertNew_of_known (known c List.mem_cons_self scope)]
      rw [List.foldl_cons, declared, ih i behind, List.filter_cons_of_neg (by simp [scope])]

/-- A query does not give another value to a name that is known already. -/
theorem get?_foldl_declare {cs : List Constant} {i : Inputs} {name : String} {x : Float}
    (known : i.constants.get? name = some x) :
    (cs.foldl declare i).constants.get? name = some x := by
  induction cs generalizing i with
  | nil => exact known
  | cons c cs ih =>
    refine ih ?_
    cases scope : c.scope with
    | own => simpa only [declare, scope] using known
    | shared =>
      simp only [declare, scope, Names.insertNew]
      cases found : i.constants.get? c.name with
      | some y => exact known
      | none =>
        have other : name ≠ c.name := by
          rintro rfl
          rw [found] at known
          cases known
        rw [Names.get?_insert, if_neg other, known]

end Query

namespace Catalog

variable {α : Type}

/-- The constants that the queries of a catalog share, query by query. -/
def queryConstants (c : Catalog α) : List Constant :=
  (c.queries.flatMap (·.constants)).filter (·.scope = .shared)

theorem latest?_sharedConstants (c : Catalog α) (name : String) :
    Constant.latest? c.sharedConstants name =
      (Constant.latest? c.queryConstants name).or (Constant.latest? c.constants name) :=
  Constant.latest?_append c.constants c.queryConstants name

/-- What a query shares is in the shared list of its catalog, so it adds nothing to the constants. -/
theorem inputs_eq {c : Catalog α} {q : Query} (member : q ∈ c.queries) (fields : Names) :
    q.inputs fields c.sharedConstants = ⟨fields, Constant.insertAll .empty q.ownConstants,
      Constant.insertAll .empty c.sharedConstants⟩ := by
  refine Query.foldl_declare q.constants ⟨fields, .empty, Constant.insertAll .empty _⟩ ?_
  intro k declared shared
  have listed : k ∈ c.sharedConstants := List.mem_append_right _
    (List.mem_filter.mpr ⟨List.mem_flatMap.mpr ⟨q, member, declared⟩, by simp [shared]⟩)
  rw [Constant.get?_insertAll_empty]
  exact Constant.latest?_of_mem listed

/-- A constant of the catalog's own list keeps its value in the formulas of a query exactly if the
queries do not share another value of its name. It would keep it in any case if the query were given
the catalog's own list alone. -/
theorem resolve_constant_iff {c : Catalog α} {q : Query} (member : q ∈ c.queries) {name : String}
    {x : Float} (listed : Constant.latest? c.constants name = some x) (fields calculated : Names)
    (id : Option Nat) :
    ((Scope.mk (q.inputs fields c.sharedConstants) calculated).resolve ⟨.constant, name, id⟩ =
        some x ↔ ∀ y, Constant.latest? c.queryConstants name = some y → y = x) ∧
      (Scope.mk (q.inputs fields c.constants) calculated).resolve ⟨.constant, name, id⟩ =
        some x := by
  constructor
  · have value : (q.inputs fields c.sharedConstants).constants.get? name =
        (Constant.latest? c.queryConstants name).or (some x) := by
      rw [inputs_eq member, Constant.get?_insertAll_empty, latest?_sharedConstants, listed]
    have looked : (Scope.mk (q.inputs fields c.sharedConstants) calculated).resolve
        ⟨.constant, name, id⟩ = (q.inputs fields c.sharedConstants).constants.get? name := rfl
    rw [looked, value]
    cases Constant.latest? c.queryConstants name <;> simp
  · refine Query.get?_foldl_declare ?_
    rw [← listed]
    exact Constant.get?_insertAll_empty c.constants name

def bonus : Query := ⟨"bonus", "", none, [⟨"Tax", "[Constant:Vat]", .number, 0⟩], []⟩

def rebate : Query := ⟨"rebate", "", none, [], [⟨"Vat", 0.05, .shared⟩, ⟨"Cap", 7.0, .own⟩]⟩

def tariffs : Catalog Float := ⟨[], [bonus, rebate], [⟨"Vat", 0.2, .shared⟩, ⟨"Cap", 9.0, .shared⟩]⟩

/-- The catalog's cap stands, since the query that has a cap does not share it. -/
theorem resolve_constant_iff_cap :
    bonus ∈ tariffs.queries ∧ Constant.latest? tariffs.constants "Cap" = some 9.0 ∧
      (Scope.mk (bonus.inputs .empty tariffs.sharedConstants) .empty).resolve
        ⟨.constant, "Cap", none⟩ = some 9.0 := by
  have member : bonus ∈ tariffs.queries := List.mem_cons_self
  have listed : Constant.latest? tariffs.constants "Cap" = some 9.0 := by decide +kernel
  have kept : Constant.latest? tariffs.queryConstants "Cap" = none := by decide +kernel
  refine ⟨member, listed, (resolve_constant_iff member listed .empty .empty none).1.mpr ?_⟩
  rw [kept]
  rintro y ⟨⟩

/-- One query shares another rate, and the formulas of a query that declares nothing see that one. -/
theorem vat_overruled :
    bonus ∈ tariffs.queries ∧ Constant.latest? tariffs.constants "Vat" = some 0.2 ∧
      (Scope.mk (bonus.inputs .empty tariffs.sharedConstants) .empty).resolve
        ⟨.constant, "Vat", none⟩ ≠ some 0.2 := by
  refine ⟨List.mem_cons_self, ?_, ?_⟩ <;> decide +kernel

/-- All queries of a catalog see the same fields and the same constants. Their parameters are what
they keep to themselves, the last of a name counting; any other name reads as a parameter what it
reads as a constant. -/
theorem inputs_share (c : Catalog α) (fields : Names) :
    (∀ q ∈ c.queries, ∀ q' ∈ c.queries,
      (q.inputs fields c.sharedConstants).constants =
          (q'.inputs fields c.sharedConstants).constants ∧
        (q.inputs fields c.sharedConstants).fields =
          (q'.inputs fields c.sharedConstants).fields) ∧
    ∀ q ∈ c.queries, ∀ (calculated : Names) (name : String) (id id' : Option Nat),
      let scope : Scope := ⟨q.inputs fields c.sharedConstants, calculated⟩
      scope.inputs.parameters.get? name = Constant.latest? q.ownConstants name ∧
        scope.resolve ⟨.parameter, name, id⟩ =
          (Constant.latest? q.ownConstants name).or (scope.resolve ⟨.constant, name, id'⟩) := by
  constructor
  · intro q member q' member'
    rw [inputs_eq member, inputs_eq member']
    exact ⟨rfl, rfl⟩
  · intro q member calculated name id id' scope
    have own : scope.inputs.parameters.get? name = Constant.latest? q.ownConstants name := by
      have inputs : scope.inputs = _ := inputs_eq member fields
      rw [inputs, Constant.get?_insertAll_empty]
    refine ⟨own, ?_⟩
    rw [← own]
    rfl

/-- Two queries see one rate, and a cap that one of them keeps to itself changes only what that one
reads as a parameter. -/
theorem inputs_share_cap :
    bonus ∈ tariffs.queries ∧ rebate ∈ tariffs.queries ∧
      (bonus.inputs .empty tariffs.sharedConstants).constants =
        (rebate.inputs .empty tariffs.sharedConstants).constants ∧
      (Scope.mk (rebate.inputs .empty tariffs.sharedConstants) .empty).resolve
        ⟨.parameter, "Cap", none⟩ = some 7.0 := by
  have first : bonus ∈ tariffs.queries := List.mem_cons_self
  have second : rebate ∈ tariffs.queries := List.mem_cons_of_mem _ List.mem_cons_self
  obtain ⟨alike, own⟩ := inputs_share tariffs .empty
  have kept : Constant.latest? rebate.ownConstants "Cap" = some 7.0 := by decide +kernel
  refine ⟨first, second, (alike bonus first rebate second).1, ?_⟩
  rw [(own rebate second .empty "Cap" none none).2, kept, Option.some_or]

end Catalog
end Docket
