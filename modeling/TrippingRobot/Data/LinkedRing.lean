import Mathlib.Data.List.Chain
import Mathlib.Data.List.Infix
import Mathlib.Logic.Function.Basic

/-! Circular doubly linked lists in a heap of `next` and `prev` pointers. -/

namespace TrippingRobot.Data

universe u
variable {α : Type u}

structure Links (α : Type u) where
  next : α → α
  prev : α → α

namespace Links

/-- Two neighbours that point at each other. -/
def Joined (links : Links α) (first second : α) : Prop :=
  links.next first = second ∧ links.prev second = first

/-- The nodes between a head and itself, each once, joined to their neighbours. -/
structure Ring (links : Links α) (head : α) (nodes : List α) : Prop where
  distinct : (head :: nodes).Nodup
  joined : (head :: nodes ++ [head]).IsChain links.Joined

def setNext [DecidableEq α] (links : Links α) (node target : α) : Links α :=
  { links with next := Function.update links.next node target }

def setPrev [DecidableEq α] (links : Links α) (node target : α) : Links α :=
  { links with prev := Function.update links.prev node target }

/-- A node put in front of `place`. -/
def insertBefore [DecidableEq α] (links : Links α) (node place : α) : Links α where
  next := Function.update (Function.update links.next (links.prev place) node) node place
  prev := Function.update (Function.update links.prev node (links.prev place)) place node

variable {links : Links α} {head node : α} {nodes before after : List α}

theorem Ring.empty (next : links.next head = head) (prev : links.prev head = head) :
    links.Ring head [] where
  distinct := by simp
  joined := by simp [Joined, next, prev]

/-- Following `next` from the head visits the nodes and returns. -/
theorem Ring.forward (ring : links.Ring head nodes) :
    (head :: nodes ++ [head]).IsChain fun first second => links.next first = second :=
  ring.joined.imp fun _ _ joined => joined.1

/-- Following `prev` from the head visits the nodes in reverse and returns. -/
theorem Ring.backward (ring : links.Ring head nodes) :
    (head :: nodes.reverse ++ [head]).IsChain fun first second => links.prev first = second := by
  have chain : (head :: nodes ++ [head]).reverse.IsChain
      fun first second => links.prev first = second :=
    List.isChain_reverse.mpr (ring.joined.imp fun _ _ joined => joined.2)
  simpa using chain

private theorem joined_head_cons (chain : (node :: after ++ [head]).IsChain links.Joined) :
    links.next node = after.headD head := by
  cases after with
  | nil =>
    have joined : links.Joined node head := by simpa using chain
    exact joined.1
  | cons first rest =>
    rw [List.cons_append, List.cons_append, List.isChain_cons_cons] at chain
    exact chain.1.1

theorem Ring.next_head (ring : links.Ring head nodes) : links.next head = nodes.headD head :=
  joined_head_cons ring.joined

theorem Ring.next_node (ring : links.Ring head (before ++ node :: after)) :
    links.next node = after.headD head := by
  apply joined_head_cons
  apply ring.joined.suffix
  exact ⟨head :: before, by simp⟩

private theorem isChain_frame {R S : α → α → Prop} (list : List α) (chain : list.IsChain R)
    (kept : ∀ first ∈ list.dropLast, ∀ second ∈ list.tail, R first second → S first second) :
    list.IsChain S := by
  induction list with
  | nil => exact .nil
  | cons first rest ih =>
    cases rest with
    | nil => exact .singleton first
    | cons second rest =>
      rw [List.isChain_cons_cons] at chain ⊢
      refine ⟨kept first (by simp) second (by simp) chain.1, ih chain.2 ?_⟩
      intro left leftMember right rightMember
      exact kept left (by simp [leftMember]) right (List.mem_cons_of_mem _ rightMember)

variable [DecidableEq α]

private theorem insertBefore_joined (links : Links α) {first second last place : α}
    (seam : links.prev place = last) (firstLast : first ≠ last) (firstNode : first ≠ node)
    (secondPlace : second ≠ place) (secondNode : second ≠ node)
    (joined : links.Joined first second) :
    (links.insertBefore node place).Joined first second := by
  constructor
  · simpa [insertBefore, seam, firstLast, firstNode] using joined.1
  · simpa [insertBefore, seam, secondPlace, secondNode] using joined.2

/-- A fresh node put in front of the first of `after` joins the ring between
its two neighbours and leaves both halves as they are. -/
theorem Ring.insert (ring : links.Ring head (before ++ after))
    (fresh : node ∉ head :: (before ++ after)) :
    (links.insertBefore node (after.headD head)).Ring head (before ++ node :: after) := by
  obtain ⟨front, last, left⟩ : ∃ front last, head :: before = front ++ [last] :=
    ⟨_, _, (List.dropLast_append_getLast (List.cons_ne_nil head before)).symm⟩
  obtain ⟨back, right⟩ : ∃ back, after ++ [head] = after.headD head :: back := by
    cases after <;> simp
  generalize after.headD head = place at right ⊢
  have distinct := ring.distinct
  have chain := ring.joined
  rw [← List.cons_append, List.append_assoc, List.isChain_append] at chain
  obtain ⟨leftChain, rightChain, seam⟩ := chain
  have seam : links.Joined last place :=
    seam last (by simp [left]) place (by simp [right])
  have leftDistinct : (front ++ [last]).Nodup := by
    rw [← left]
    exact distinct.sublist (List.cons_sublist_cons.mpr (List.sublist_append_left before after))
  have rightDistinct : (place :: back).Nodup := by
    rw [← right]
    grind
  have lastMember : last ∈ head :: before := by simp [left]
  have placeMember : place ∈ after ++ [head] := by simp [right]
  have lastAfter : last ∉ after := by grind
  have placeBefore : place ∉ before := by grind
  constructor
  · grind
  · have shape : head :: (before ++ node :: after) ++ [head] =
        (head :: before) ++ node :: (after ++ [head]) := by simp
    rw [shape, List.isChain_append]
    refine ⟨?_, ?_, ?_⟩
    · apply isChain_frame _ leftChain
      intro first firstMember second secondMember
      have firstFront : first ∈ front := by simpa [left] using firstMember
      have secondBefore : second ∈ before := secondMember
      apply insertBefore_joined links seam.2 <;> grind
    · rw [right, List.isChain_cons_cons, ← right]
      constructor
      · constructor
        · simp [insertBefore]
        · simp [insertBefore]
      · apply isChain_frame _ rightChain
        intro first firstMember second secondMember
        have firstAfter : first ∈ after := by simpa using firstMember
        have secondBack : second ∈ back := by simpa [right] using secondMember
        apply insertBefore_joined links seam.2 <;> grind
    · intro first firstLast second secondNode
      have firstLast : first = last := by simpa [left] using firstLast.symm
      have secondNode : second = node := by simpa using secondNode.symm
      subst first second
      have lastNode : last ≠ node := by grind
      have nodePlace : node ≠ place := by grind
      constructor
      · simp [insertBefore, seam.2, lastNode]
      · simp [insertBefore, seam.2, nodePlace]

end Links

end TrippingRobot.Data
