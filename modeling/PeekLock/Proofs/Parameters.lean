import Mathlib.Data.List.DropRight
import PeekLock.Parameters
import PeekLock.Proofs.Keyed

/-! # Credentials stay hidden

What credentials were set to, in which order and how often, leaves two traces.  A look-up
finds the last value that a name was given (`get?_ofList`), and two bags with the
same look-ups are the same bag.  A description tells the names and nothing else: any
list of them leads to the same text, as sorting brings it into one order
(`describe_eq_describeNames`).  So a description cannot tell apart two bags with the
same names (`values_never_show`).
-/

namespace PeekLock

/-- The last value that a name was given. -/
def lastValue? (name : String) (given : List (String × String)) : Option String :=
  ((given.filter fun entry => entry.1 = name).getLast?).map (·.2)

namespace Parameters

variable {p p' : Parameters} (given : List (String × String)) (name : String)

/-! ## What is found -/

theorem ext_get? (same : ∀ name, p.get? name = p'.get? name) : p = p' := by
  obtain ⟨entries, ascend⟩ := p
  obtain ⟨entries', ascend'⟩ := p'
  obtain rfl : entries = entries' := ascend.ext ascend' same
  rfl

theorem get?_ofList : (ofList given).get? name = lastValue? name given := by
  induction given using List.reverseRecOn with
  | nil => rfl
  | append_singleton given entry ih =>
    have last : ofList (given ++ [entry]) = (ofList given).set entry.1 entry.2 :=
      List.foldl_concat ..
    rw [last, get?, set, Keyed.get?_insert, lastValue?, List.filter_append]
    by_cases here : name = entry.1
    · simp [here]
    · -- Another name's value neither changes the look-up nor is among the values of this one.
      have nothing : [entry].filter (fun entry => decide (entry.1 = name)) = [] := by
        simp [Ne.symm here]
      rw [if_neg here, nothing, List.append_nil]
      exact ih

/-! ## Which names there are -/

theorem mem_names_iff : name ∈ p.names ↔ (p.get? name).isSome := by
  rw [names, List.mem_map, Option.isSome_iff_exists]
  constructor
  · rintro ⟨⟨name, value⟩, member, rfl⟩
    exact ⟨value, p.ascend.get?_eq_some_iff.2 member⟩
  · rintro ⟨value, found⟩
    exact ⟨(name, value), p.ascend.get?_eq_some_iff.1 found, rfl⟩

theorem mem_names_ofList : name ∈ (ofList given).names ↔ name ∈ given.map Prod.fst := by
  rw [mem_names_iff, get?_ofList, lastValue?, Option.isSome_map, List.getLast?_isSome,
    ← List.isEmpty_eq_false_iff, ← Bool.not_eq_true, List.isEmpty_iff, List.filter_eq_nil_iff]
  simp

theorem names_ascend (p : Parameters) : p.names.Pairwise (· < ·) :=
  List.pairwise_map.2 p.ascend

theorem nodup_names (p : Parameters) : p.names.Nodup :=
  p.names_ascend.imp fun below => by
    rintro rfl
    exact String.lt_irrefl _ below

end Parameters

namespace CredentialParams

variable (given : List (String × String))

theorem inOrder_ascend (names : List String) : (inOrder names).Pairwise (· ≤ ·) := by
  unfold inOrder
  refine (List.pairwise_mergeSort ?transitive ?total names).imp of_decide_eq_true
  case transitive =>
    intro a b c first second
    exact decide_eq_true (String.le_trans (of_decide_eq_true first) (of_decide_eq_true second))
  case total =>
    intro a b
    rw [Bool.or_eq_true, decide_eq_true_eq, decide_eq_true_eq]
    exact String.le_total a b

/-- Sorting makes one list of the names, in whatever order they come. -/
theorem inOrder_of_perm {names names' : List String} (same : names.Perm names') :
    inOrder names = inOrder names' := by
  have perm : (inOrder names).Perm (inOrder names') :=
    (List.mergeSort_perm names _).trans (same.trans (List.mergeSort_perm names' _).symm)
  exact List.Perm.eq_of_pairwise (fun _ _ _ _ => String.le_antisymm) (inOrder_ascend names)
    (inOrder_ascend names') perm

theorem describeNames_of_perm {names names' : List String} (same : names.Perm names') :
    describeNames names = describeNames names' := by
  unfold describeNames
  rw [inOrder_of_perm same]

/-- A description is that of the names that were given, however they are listed. -/
theorem describe_eq_describeNames {names : List String} (once : names.Nodup)
    (all : ∀ name, name ∈ names ↔ name ∈ given.map Prod.fst) :
    (ofList given).describe = describeNames names := by
  apply describeNames_of_perm
  refine (List.perm_ext_iff_of_nodup (Parameters.nodup_names _) once).2 fun name => ?_
  rw [all]
  exact Parameters.mem_names_ofList given name

theorem eq_of_lastValue? {given given' : List (String × String)}
    (same : ∀ name, lastValue? name given = lastValue? name given') :
    ofList given = ofList given' := by
  refine congrArg mk (Parameters.ext_get? fun name => ?_)
  rw [Parameters.get?_ofList, Parameters.get?_ofList, same]

theorem beq_self (c : CredentialParams) : (c == c) = true := by
  show (c.values.entries == c.values.entries) = true
  exact beq_self_eq_true _

/-- However two bags of credentials come about, the same names lead to the same description, which
    is that of the names in any order.  What is found under a name is the last value that it was
    given, and the same last values lead to the same bag. -/
theorem values_never_show (given given' : List (String × String)) :
    ((∀ name, name ∈ given.map Prod.fst ↔ name ∈ given'.map Prod.fst) →
      (ofList given).describe = (ofList given').describe) ∧
      (∀ names : List String, names.Nodup → (∀ name, name ∈ names ↔ name ∈ given.map Prod.fst) →
        (ofList given).describe = describeNames names) ∧
      (∀ name, (ofList given).get? name = lastValue? name given) ∧
      ((∀ name, lastValue? name given = lastValue? name given') →
        ofList given = ofList given' ∧ (ofList given == ofList given') = true ∧
          ∀ name, (ofList given).get? name = (ofList given').get? name) := by
  refine ⟨fun sameNames => ?describe, fun names once all => ?listed, Parameters.get?_ofList given,
    fun sameValues => ?bags⟩
  case describe =>
    refine describe_eq_describeNames given (Parameters.nodup_names _) fun name => ?_
    exact (Parameters.mem_names_ofList given' name).trans (sameNames name).symm
  case listed =>
    exact describe_eq_describeNames given once all
  case bags =>
    have bags := eq_of_lastValue? sameValues
    rw [← bags]
    exact ⟨rfl, beq_self _, fun _ => rfl⟩

/-- Neither other values nor another order show in the description, and an overwritten value is
    gone. -/
theorem values_never_show_of_user_and_password :
    (ofList [("user", "admin"), ("password", "hunter2")]).describe =
        (ofList [("password", "open"), ("user", "guest"), ("password", "sesame")]).describe ∧
      ofList [("user", "admin"), ("password", "hunter2")] =
        ofList [("password", "open"), ("password", "hunter2"), ("user", "admin")] := by
  constructor
  · refine (values_never_show _ _).1 fun name => ?_
    simp only [List.map_cons, List.map_nil, List.mem_cons, List.not_mem_nil, or_false]
    grind
  · refine ((values_never_show _ _).2.2.2 fun name => ?_).1
    by_cases user : name = "user"
    · simp [lastValue?, user]
    · by_cases password : name = "password"
      · simp [lastValue?, password]
      · simp [lastValue?, Ne.symm user, Ne.symm password]

end CredentialParams

end PeekLock
