import Petrus.Lib.Dict
import Petrus.Lib.Fold

/-!
# Keyword arguments

A constructor declares parameters, some with a default, and is called with named
arguments. An argument no parameter declares is refused, as is a parameter without
argument and default. What the call binds stands in the order of declaration.
-/

namespace Petrus.Lib

open List

structure Parameter (α : Type) where
  name : String
  default : Option α := none

variable {α : Type} {owner : String} {params : List (Parameter α)} {args bound : List (String × α)}

def bindArgument (owner : String) (args : List (String × α)) (p : Parameter α) :
    Except Exc (String × α) :=
  match Dict.lookup p.name args, p.default with
  | some a, _ => .ok (p.name, a)
  | none, some a => .ok (p.name, a)
  | none, none =>
    .error (typeError s!"{owner}.__init__() missing 1 required argument: {quoted p.name}")

def bindArguments (owner : String) (params : List (Parameter α)) (args : List (String × α)) :
    Except Exc (List (String × α)) :=
  match args.find? fun a => a.1 ∉ params.map Parameter.name with
  | some a =>
    .error (typeError s!"{owner}.__init__() got an unexpected keyword argument {quoted a.1}")
  | none => params.mapM (bindArgument owner args)

def argument [Inhabited α] (bound : List (String × α)) (name : String) : α :=
  (Dict.lookup name bound).getD default

lemma eq_map_argument [Inhabited α] (hn : (bound.map Prod.fst).Nodup) :
    bound = (bound.map Prod.fst).map fun k => (k, argument bound k) := by
  rw [map_map]
  conv_lhs => rw [← map_id bound]
  apply map_congr_left
  intro b hb
  simp [argument, Dict.lookup_of_mem hn hb]

lemma bindArgument_name {p : Parameter α} {b : String × α}
    (h : bindArgument owner args p = .ok b) : b.1 = p.name := by
  unfold bindArgument at h
  split at h <;> cases h <;> rfl

lemma bindArgument_given {p : Parameter α} {k : String} {a b : α}
    (h : bindArgument owner args p = .ok (k, b)) (ha : Dict.lookup k args = some a) : a = b := by
  have hname : k = p.name := bindArgument_name h
  subst hname
  unfold bindArgument at h
  rw [ha] at h
  exact (Prod.mk.inj (Except.ok.inj h)).2

lemma bindArguments_mapM (h : bindArguments owner params args = .ok bound) :
    params.mapM (bindArgument owner args) = .ok bound := by
  unfold bindArguments at h
  split at h
  · cases h
  · exact h

lemma bindArguments_names (h : bindArguments owner params args = .ok bound) :
    bound.map Prod.fst = params.map Parameter.name := by
  have hbound := mapM_eq_ok.mp (bindArguments_mapM h)
  have hnames : List.Forall₂ (· = ·) (bound.map Prod.fst) (params.map Parameter.name) := by
    rw [forall₂_map_left_iff, forall₂_map_right_iff]
    exact (hbound.imp fun _ _ hp => bindArgument_name hp).flip
  rwa [forall₂_eq_eq_eq] at hnames

lemma bindArguments_given (h : bindArguments owner params args = .ok bound)
    (hn : (args.map Prod.fst).Nodup) {k : String} {a b : α} (hb : (k, b) ∈ bound)
    (ha : (k, a) ∈ args) : a = b := by
  obtain ⟨p, -, hp⟩ := mem_of_mapM (bindArguments_mapM h) hb
  exact bindArgument_given hp (Dict.lookup_of_mem hn ha)

lemma bindArguments_declared (h : args.map Prod.fst = params.map Parameter.name)
    (hn : (args.map Prod.fst).Nodup) : bindArguments owner params args = .ok args := by
  have hknown : args.find? (fun a => a.1 ∉ params.map Parameter.name) = none := by
    rw [find?_eq_none]
    intro a ha
    simp only [decide_eq_true_eq, not_not, ← h]
    exact mem_map_of_mem ha
  unfold bindArguments
  rw [hknown]
  change params.mapM (bindArgument owner args) = .ok args
  rw [mapM_eq_ok, forall₂_iff_get]
  have hlength : params.length = args.length := by simpa using (congrArg List.length h).symm
  refine ⟨hlength, ?_⟩
  intro i hi hi'
  have hname : (args.get ⟨i, hi'⟩).1 = (params.get ⟨i, hi⟩).name := by
    have hget := congrArg (fun names => names[i]?) h
    simpa [hi, hi'] using hget
  have hgiven : Dict.lookup (params.get ⟨i, hi⟩).name args = some (args.get ⟨i, hi'⟩).2 := by
    rw [← hname]
    exact Dict.lookup_of_mem hn (get_mem _ _)
  unfold bindArgument
  rw [hgiven, ← hname]

end Petrus.Lib
