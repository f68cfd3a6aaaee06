import CanonicalMarkdown.Proofs.Tree.OpenKinds

namespace CanonicalMarkdown

/-- With these containers open, innermost first, the rest of a stream closes each of them and each
    that it starts, and starts items directly inside lists only. -/
def itemsInLists : List Container → List Event → Bool
  | opened, [] => opened.isEmpty
  | opened, event :: rest =>
    match event.markup, opened with
    | .start container, _ =>
      (container ≠ .item || kindInside opened = .list)
        && itemsInLists (container :: opened) rest
    | .close, [] => false
    | .close, _ :: outer => itemsInLists outer rest
    | _, _ => itemsInLists opened rest

/-- Neither the start of a container nor its end. -/
def Markup.isContent : Markup → Bool
  | .start _ | .close => false
  | _ => true

/-- Inside an open node of this kind, the events are content and closed containers. -/
inductive Nested : Kind → List Event → Prop
  | nil {around : Kind} : Nested around []
  | content {around : Kind} {event : Event} {rest : List Event} :
      event.markup.isContent = true → Nested around rest → Nested around (event :: rest)
  | container {around : Kind} {container : Container} {first last : Span}
      {inside rest : List Event} : (container = .item → around = .list) →
      Nested container.kind inside → Nested around rest →
      Nested around (⟨.start container, first⟩ :: (inside ++ ⟨.close, last⟩ :: rest))

theorem itemsInLists_content {event : Event} (content : event.markup.isContent = true)
    (opened : List Container) (rest : List Event) :
    itemsInLists opened (event :: rest) = itemsInLists opened rest := by
  obtain ⟨markup, span⟩ := event
  cases markup <;> first | rfl | contradiction

def ClosesOuter : List Container → List Event → Prop
  | [], rest => rest = []
  | _ :: outer, rest =>
    ∃ last more, rest = ⟨.close, last⟩ :: more ∧ itemsInLists outer more = true

theorem nested_of_itemsInLists (opened : List Container) (events : List Event)
    (closes : itemsInLists opened events = true) :
    ∃ inside rest, events = inside ++ rest ∧ Nested (kindInside opened) inside ∧
      ClosesOuter opened rest := by
  match events with
  | [] =>
    obtain rfl : opened = [] := List.isEmpty_iff.mp closes
    exact ⟨[], [], rfl, .nil, rfl⟩
  | event :: tail =>
    by_cases content : event.markup.isContent = true
    · rw [itemsInLists_content content] at closes
      obtain ⟨inside, rest, rfl, nested, outer⟩ := nested_of_itemsInLists opened tail closes
      exact ⟨event :: inside, rest, rfl, .content content nested, outer⟩
    · obtain ⟨markup, span⟩ := event
      cases markup with
      | start container =>
        obtain ⟨starts, closes⟩ := Bool.and_eq_true_iff.mp closes
        obtain ⟨inside, _, rfl, nested, last, more, rfl, outside⟩ :=
          nested_of_itemsInLists (container :: opened) tail closes
        obtain ⟨behind, rest, rfl, follows, outer⟩ := nested_of_itemsInLists opened more outside
        refine ⟨⟨.start container, span⟩ :: (inside ++ ⟨.close, last⟩ :: behind), rest, ?_, ?_,
          outer⟩
        · simp
        · refine .container ?_ nested follows
          rintro rfl
          simpa using starts
      | close =>
        cases opened with
        | nil => contradiction
        | cons container outer => exact ⟨[], _, rfl, .nil, span, tail, rfl, closes⟩
      | _ => exact absurd rfl content
termination_by events.length

theorem nested_of_closed {events : List Event} (closes : itemsInLists [] events = true) :
    Nested .document events := by
  obtain ⟨inside, _, rfl, nested, rfl⟩ := nested_of_itemsInLists [] events closes
  rwa [List.append_nil]

/-- The events up to the close of a container, so many containers deeper. -/
def eventsInside : Nat → List Event → List Event
  | _, [] => []
  | depth, event :: rest =>
    match event.markup, depth with
    | .close, 0 => []
    | .close, depth + 1 => event :: eventsInside depth rest
    | .start _, depth => event :: eventsInside (depth + 1) rest
    | _, depth => event :: eventsInside depth rest

/-- For each start of a paragraph, the containers open around it, innermost first. -/
def paragraphPlaces (opened : List Container) : List Event → List (List Container)
  | [] => []
  | event :: rest =>
    (if event.markup = .start .paragraph then [opened] else [])
      ++ paragraphPlaces (event.markup.opens opened) rest

structure Enclosure where
  front : List Event
  container : Container
  span : Span
  inside : List Event
deriving DecidableEq, Repr, Inhabited

/-- The containers that a stream starts, in order, behind the events before them. -/
def enclosures (before : List Event) : List Event → List Enclosure
  | [] => []
  | event :: rest =>
    (match event.markup with
      | .start container =>
        [⟨before ++ [event], container, event.span, eventsInside 0 rest⟩]
      | _ => [])
      ++ enclosures (before ++ [event]) rest

section content

variable {event : Event} (content : event.markup.isContent = true)
include content

theorem eventsInside_content (depth : Nat) (rest : List Event) :
    eventsInside depth (event :: rest) = event :: eventsInside depth rest := by
  obtain ⟨markup, span⟩ := event
  cases markup <;> first | rfl | contradiction

theorem paragraphPlaces_content (opened : List Container) (rest : List Event) :
    paragraphPlaces opened (event :: rest) = paragraphPlaces opened rest := by
  obtain ⟨markup, span⟩ := event
  cases markup <;> first | rfl | contradiction

theorem enclosures_content (before rest : List Event) :
    enclosures before (event :: rest) = enclosures (before ++ [event]) rest := by
  obtain ⟨markup, span⟩ := event
  cases markup <;> first | rfl | contradiction

end content

namespace Nested

variable {around : Kind} {inner : List Event}

theorem eventsInside_append (nested : Nested around inner) (depth : Nat) (rest : List Event) :
    eventsInside depth (inner ++ rest) = inner ++ eventsInside depth rest := by
  induction nested generalizing depth rest with
  | nil => rfl
  | content content _ ih =>
    rw [List.cons_append, eventsInside_content content, ih]
    rfl
  | container _ _ _ below behind =>
    simp only [List.cons_append, List.append_assoc, eventsInside, below, behind]

theorem eventsInside_close (nested : Nested around inner) (last : Span) (rest : List Event) :
    eventsInside 0 (inner ++ ⟨.close, last⟩ :: rest) = inner := by
  rw [nested.eventsInside_append]
  exact List.append_nil inner

theorem paragraphPlaces_append (nested : Nested around inner) (opened : List Container)
    (rest : List Event) :
    paragraphPlaces opened (inner ++ rest) =
      (paragraphPlaces [] inner).map (· ++ opened) ++ paragraphPlaces opened rest := by
  induction nested generalizing opened rest with
  | nil => rfl
  | content content _ ih =>
    rw [List.cons_append, paragraphPlaces_content content, paragraphPlaces_content content, ih]
  | @container _ container _ _ _ _ _ _ _ below behind =>
    simp only [List.cons_append, List.append_assoc, paragraphPlaces, Markup.opens, List.tail_cons,
      below, behind]
    by_cases paragraph : container = .paragraph <;> simp [paragraph]

theorem enclosures_append (nested : Nested around inner) (before rest : List Event) :
    enclosures before (inner ++ rest) =
      enclosures before inner ++ enclosures (before ++ inner) rest := by
  induction nested generalizing before rest with
  | nil => simp [enclosures]
  | content content _ ih =>
    rw [List.cons_append, enclosures_content content, enclosures_content content, ih,
      ← List.append_cons]
  | container _ nested _ below behind =>
    simp [enclosures, nested.eventsInside_close, below, behind]

variable {container : Container} {first last : Span} {inside rest : List Event}

theorem enclosures_container (nested : Nested around inside) (before : List Event) :
    enclosures before (⟨.start container, first⟩ :: (inside ++ ⟨.close, last⟩ :: rest)) =
      ⟨before ++ [⟨.start container, first⟩], container, first, inside⟩ ::
        (enclosures (before ++ [⟨.start container, first⟩]) inside ++
          enclosures (before ++ ⟨.start container, first⟩ :: (inside ++ [⟨.close, last⟩]))
            rest) := by
  simp [enclosures, nested.eventsInside_close, nested.enclosures_append]

theorem paragraphPlaces_container (nested : Nested around inside) :
    paragraphPlaces [] (⟨.start container, first⟩ :: (inside ++ ⟨.close, last⟩ :: rest)) =
      (if container = .paragraph then [[]] else []) ++
        ((paragraphPlaces [] inside).map (· ++ [container]) ++ paragraphPlaces [] rest) := by
  simp [paragraphPlaces, Markup.opens, nested.paragraphPlaces_append]

theorem nil_mem_paragraphPlaces (nested : Nested around inside) :
    [] ∈ paragraphPlaces [] (⟨.start container, first⟩ :: (inside ++ ⟨.close, last⟩ :: rest)) ↔
      container = .paragraph ∨ [] ∈ paragraphPlaces [] rest := by
  rw [nested.paragraphPlaces_container]
  by_cases paragraph : container = .paragraph <;> simp [paragraph]

theorem item_mem_paragraphPlaces (nested : Nested around inside) :
    [.item] ∈ paragraphPlaces []
        (⟨.start container, first⟩ :: (inside ++ ⟨.close, last⟩ :: rest)) ↔
      (container = .item ∧ [] ∈ paragraphPlaces [] inside) ∨
        [.item] ∈ paragraphPlaces [] rest := by
  rw [nested.paragraphPlaces_container]
  by_cases paragraph : container = .paragraph <;>
    simp [paragraph, List.append_eq_singleton_iff, and_comm]

end Nested

end CanonicalMarkdown
