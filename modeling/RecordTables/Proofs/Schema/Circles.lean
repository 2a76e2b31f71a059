import Mathlib.Data.List.Chain
import Mathlib.Data.List.Nodup
import Mathlib.Data.List.TakeWhile
import Mathlib.Logic.Relation
import RecordTables.Schema.Resolution

/-!
# Circles on the way down

Two walks go down a graph of names and stop with a fault when they meet a name that is on their way
already: the walk over ancestors and the walk over sub-structures.  Both keep the way as a path that
meets no name twice (`Leads`), and report the part of it that comes back to its start
(`Leads.isCircle_closeCycle`).
-/

namespace RecordTables.Schema

open Relation

variable {edge : String → String → Prop} {path names rest : List String} {name : String}

/-! ### Circles -/

/-- A path along the edges of a graph that ends where it starts, and meets no name twice before. -/
structure IsCircle (edge : String → String → Prop) (path : List String) : Prop where
  length : 2 ≤ path.length
  closed : path.head? = path.getLast?
  nodup : path.dropLast.Nodup
  steps : path.IsChain edge

/-- Every name on a path can be reached from its start. -/
theorem reflTransGen_of_isChain (h : (name :: path).IsChain edge) {other : String}
    (hother : other ∈ name :: path) : ReflTransGen edge name other := by
  have hreach : (name :: path).IsChain (ReflTransGen edge) := h.imp fun _ _ => .single
  rcases List.mem_cons.1 hother with rfl | hother
  · exact .refl
  · exact (List.pairwise_cons.1 hreach.pairwise).1 other hother

/-- A name on a circle can be reached from itself. -/
theorem IsCircle.transGen (h : IsCircle edge path) (hname : name ∈ path) :
    TransGen edge name name := by
  obtain ⟨hlength, hclosed, -, hsteps⟩ := h
  match path, hlength with
  | start :: next :: rest, _ =>
    have hfirst : edge start next := (List.isChain_cons_cons.1 hsteps).1
    have hback : (next :: rest).getLast? = some start := by
      rw [List.getLast?_cons_cons] at hclosed
      exact hclosed.symm
    have hround : TransGen edge start start :=
      .head' hfirst (reflTransGen_of_isChain (List.isChain_cons_cons.1 hsteps).2
        (List.mem_of_getLast? hback))
    -- from the name on to the end of the circle, which is its start, and on to the name again
    obtain ⟨before, after, hcut⟩ := List.append_of_mem hname
    have hrest : (name :: after).IsChain edge := by
      rw [hcut] at hsteps
      exact (List.isChain_append.1 hsteps).2.1
    have hend : start ∈ name :: after := by
      have hlast : (start :: next :: rest).getLast? = some start := by
        rw [List.getLast?_cons_cons]
        exact hback
      rw [hcut, List.getLast?_append_of_ne_nil _ (List.cons_ne_nil _ _)] at hlast
      exact List.mem_of_getLast? hlast
    have hthere : ReflTransGen edge name start := reflTransGen_of_isChain hrest hend
    have hhere : ReflTransGen edge start name := reflTransGen_of_isChain hsteps hname
    exact (TransGen.trans_right hthere hround).trans_left hhere

/-! ### The way down -/

/-- A path that meets no name twice, from the end of which edges lead on to the given names.  The
path may be empty: then nothing leads to the names. -/
structure Leads (edge : String → String → Prop) (path names : List String) : Prop where
  nodup : path.Nodup
  steps : path.IsChain edge
  onward : ∀ last, path.getLast? = some last → ∀ name ∈ names, edge last name

theorem leads_nil (edge : String → String → Prop) (names : List String) : Leads edge [] names :=
  ⟨List.nodup_nil, List.isChain_nil, fun _ h => nomatch h⟩

theorem Leads.tail (h : Leads edge path (name :: names)) : Leads edge path names :=
  ⟨h.nodup, h.steps, fun last hlast n hn => h.onward last hlast n (List.mem_cons_of_mem _ hn)⟩

/-- Going on to a new name. -/
theorem Leads.append (h : Leads edge path (name :: rest)) (hnew : name ∉ path)
    (hnames : ∀ n ∈ names, edge name n) : Leads edge (path ++ [name]) names := by
  constructor
  case nodup =>
    exact List.Nodup.append h.nodup (List.nodup_singleton _) (by simpa using hnew)
  case steps =>
    refine h.steps.append (List.isChain_singleton _) fun last hlast next hnext => ?_
    obtain rfl : name = next := Option.some.inj hnext
    exact h.onward last hlast name List.mem_cons_self
  case onward =>
    intro last hlast
    obtain rfl : name = last := by simpa using hlast
    exact hnames

/-- From a name on, a path starts with it. -/
theorem exists_dropWhile_eq_cons (hmem : name ∈ path) :
    ∃ round, path.dropWhile (· != name) = name :: round := by
  cases hdrop : path.dropWhile (· != name) with
  | nil =>
    have hnone := List.dropWhile_eq_nil_iff.1 hdrop name hmem
    simp at hnone
  | cons first round =>
    have hhead := List.head?_dropWhile_not (· != name) path
    rw [hdrop] at hhead
    obtain rfl : first = name := by simpa using hhead
    exact ⟨round, rfl⟩

/-- **Coming back.**  A name that is on the way already closes a circle. -/
theorem Leads.isCircle_closeCycle (h : Leads edge path (name :: rest)) (hmem : name ∈ path) :
    IsCircle edge (closeCycle path name) := by
  have hsuffix : path.dropWhile (· != name) <:+ path := List.dropWhile_suffix _
  obtain ⟨round, hround⟩ := exists_dropWhile_eq_cons hmem
  unfold closeCycle
  rw [hround] at hsuffix ⊢
  constructor
  case length =>
    simp
  case closed =>
    rw [List.getLast?_concat]
    rfl
  case nodup =>
    rw [List.dropLast_concat]
    exact h.nodup.sublist hsuffix.sublist
  case steps =>
    refine (h.steps.suffix hsuffix).append (List.isChain_singleton _) fun last hlast next hnext => ?_
    obtain rfl : name = next := Option.some.inj hnext
    have hend : path.getLast? = some last := by
      obtain ⟨front, rfl⟩ := hsuffix
      rw [List.getLast?_append_of_ne_nil _ (List.cons_ne_nil _ _)]
      exact hlast
    exact h.onward last hend name List.mem_cons_self

/-- The circle starts with the name that closes it. -/
theorem Leads.reflTransGen_closeCycle (h : Leads edge path (name :: rest)) (hmem : name ∈ path)
    {other : String} (hother : other ∈ closeCycle path name) : ReflTransGen edge name other := by
  have hsteps := (h.isCircle_closeCycle hmem).steps
  obtain ⟨round, hround⟩ := exists_dropWhile_eq_cons hmem
  unfold closeCycle at hsteps hother
  rw [hround] at hsteps hother
  exact reflTransGen_of_isChain hsteps hother

end RecordTables.Schema
