import OpenApi.Bundle.Bundler
import OpenApi.Proofs.Pointer.RoundTrip

/-!
# What one reference of a walk does

The documents that a walk can see are fixed before it starts: those on the shelf and those that the
source serves. `available` is that view, and fetching a document never changes it, so the shelf is
a mere cache.

`verdict` is the decision about one reference, made on the tables of the walk alone: it becomes the
text of a link, or its target is taken in on the spot, or its target is hoisted.
`replaceReference_run` says that a walk does at a reference what the verdict says, and
`Walk.target_run` what taking in a target finds. No later proof opens the monadic code.
-/

namespace OpenApi

/-! ## Running a walk -/

namespace Walk

variable {α β : Type}

theorem pure_run (a : α) (s : Progress) : (pure a : Walk α) s = .ok a s := rfl

theorem get_run (s : Progress) : (get : Walk Progress) s = .ok s s := rfl

theorem tryCatch_run (x : Walk α) (handle : Error → Walk α) (s : Progress) :
    (tryCatch x handle) s =
      match x s with
      | .ok a s' => .ok a s'
      | .error error s' => handle error s' := by
  show EStateM.tryCatch x handle s = _
  delta EStateM.tryCatch
  dsimp only
  cases x s <;> rfl

theorem bind_run (x : Walk α) (f : α → Walk β) (s : Progress) :
    (x >>= f) s =
      match x s with
      | .ok a s' => f a s'
      | .error error s' => .error error s' := by
  show EStateM.bind x f s = _
  rw [EStateM.bind]
  cases x s <;> rfl

theorem map_run (f : α → β) (x : Walk α) (s : Progress) :
    (f <$> x) s =
      match x s with
      | .ok a s' => .ok (f a) s'
      | .error error s' => .error error s' := by
  show EStateM.map f x s = _
  rw [EStateM.map]
  cases x s <;> rfl

theorem bind_run_ok {x : Walk α} {s s' : Progress} {a : α} (h : x s = .ok a s')
    (f : α → Walk β) : (x >>= f) s = f a s' := by
  rw [bind_run, h]

theorem ofExcept_run (x : Except Error α) (s : Progress) :
    Walk.ofExcept x s =
      match x with
      | .ok a => .ok a s
      | .error error => .error error s := by
  cases x <;> rfl

end Walk

/-! ## Documents that can be seen -/

/-- The document at a URL: the one on the shelf, or else what the source serves. -/
def available (source : Source) (shelf : Shelf) (url : Url) : Option Json :=
  match shelf.lookup url with
  | some tree => some tree
  | none =>
    match source.document url with
    | .ok tree => some tree
    | .error _ => none

theorem Shelf.lookup_put (shelf : Shelf) (url other : Url) (tree : Json) :
    (shelf.put url tree).lookup other = if other = url then some tree else shelf.lookup other :=
  lookup_of_sets (Shelf.put url tree) rfl (fun _ _ _ => rfl) other

/-- Shelving what the source serves changes no document that can be seen. -/
theorem available_put {source : Source} {shelf : Shelf} {url : Url} {tree : Json}
    (hl : shelf.lookup url = none) (hd : source.document url = .ok tree) :
    available source (shelf.put url tree) = available source shelf := by
  funext other
  rw [available, available, Shelf.lookup_put]
  by_cases h : other = url
  · subst h
    rw [if_pos rfl, hl, hd]
  · rw [if_neg h]

/-- Where no document is served, only those on the shelf can be seen. -/
theorem mem_of_available_empty {shelf : Shelf} {url : Url} {tree : Json}
    (h : available .empty shelf url = some tree) : (url, tree) ∈ shelf := by
  unfold available at h
  split at h
  · next found hl =>
      cases h
      exact mem_of_lookup hl
  · cases h

/-- The progress with another shelf. -/
def Progress.withShelf (s : Progress) (shelf : Shelf) : Progress := { s with shelf }

/-- The documents that a walk can see, by URL. -/
abbrev Library := Url → Option Json

/-- The node that a target designates: resolved in its document. -/
def Library.node? (docs : Library) (target : Url) : Option Json :=
  (docs target.document).bind (·.resolve? (target.fragment.getD ""))

/-- No object in any document repeats a name. -/
def Library.Proper (docs : Library) : Prop :=
  ∀ {url tree}, docs url = some tree → tree.proper = true

theorem Library.Proper.node? {docs : Library} (h : docs.Proper) {target : Url} {node : Json}
    (hn : docs.node? target = some node) : node.proper = true := by
  obtain ⟨tree, hd, hresolve⟩ := Option.bind_eq_some_iff.mp hn
  obtain ⟨path, _, ha⟩ := Json.exists_locate?_of_resolve? hresolve
  exact Json.proper_of_at? (h hd) ha

/-- A reference of some document denotes a target. -/
def Library.Targets (docs : Library) (target : Url) : Prop :=
  ∃ base tree text, docs base = some tree ∧ text ∈ tree.references ∧
    joinReference base text = .ok target

namespace Walk

theorem document_run (source : Source) (url : Url) (s : Progress) :
    Walk.document source url s =
      match s.shelf.lookup url with
      | some tree => .ok tree s
      | none =>
        match source.document url with
        | .error error => .error error s
        | .ok tree => .ok tree (s.withShelf (s.shelf.put url tree)) := by
  simp only [Walk.document, bind_run, get_run]
  cases s.shelf.lookup url with
  | some tree => rfl
  | none => cases source.document url <;> rfl

/-- A document that can be seen is found, whatever the shelf holds of it. -/
theorem document_run_of_available {source : Source} {url : Url} {s : Progress} {tree : Json}
    (h : available source s.shelf url = some tree) :
    ∃ shelf, Walk.document source url s = .ok tree (s.withShelf shelf) ∧
      available source shelf = available source s.shelf := by
  rw [document_run]
  unfold available at h
  split at h
  · cases h
    exact ⟨s.shelf, rfl, rfl⟩
  · next hl =>
      split at h
      · next found hd =>
          cases h
          rw [hd]
          exact ⟨_, rfl, available_put hl hd⟩
      · simp at h

/-- A document that cannot be seen is the source's error and leaves no trace. -/
theorem document_run_of_unavailable {source : Source} {url : Url} {s : Progress}
    (h : available source s.shelf url = none) :
    ∃ error, source.document url = .error error ∧
      Walk.document source url s = .error error s := by
  rw [document_run]
  unfold available at h
  split at h
  · simp at h
  · next hl =>
      split at h
      · simp at h
      · next error hd =>
          rw [hd]
          exact ⟨error, rfl, rfl⟩

/-- Taking in a target finds the node that it designates, or fails with the text of the reference;
of the progress only the shelf changes, and not what can be seen. -/
theorem target_run {source : Source} {docs : Library} {s : Progress}
    (hd : available source s.shelf = docs) (base target : Url) (text : String) :
    ∃ shelf, available source shelf = docs ∧
      Walk.target source base target.document (target.fragment.getD "") text s =
        match docs.node? target with
        | some node => .ok node (s.withShelf shelf)
        | none => .error (.unresolvedReference text base.text) (s.withShelf shelf) := by
  subst hd
  cases ha : available source s.shelf target.document with
  | some tree =>
      obtain ⟨shelf, hrun, hsame⟩ := document_run_of_available ha
      refine ⟨shelf, hsame, ?_⟩
      have hcatch : (tryCatch (some <$> Walk.document source target.document) fun _ => pure none :
          Walk (Option Json)) s = .ok (some tree) (s.withShelf shelf) := by
        rw [tryCatch_run, map_run, hrun]
      rw [Walk.target, bind_run_ok hcatch, Library.node?, ha, Option.bind_some]
      cases tree.resolve? (target.fragment.getD "") <;> rfl
  | none =>
      obtain ⟨error, _, hrun⟩ := document_run_of_unavailable ha
      refine ⟨s.shelf, rfl, ?_⟩
      have hcatch : (tryCatch (some <$> Walk.document source target.document) fun _ => pure none :
          Walk (Option Json)) s = .ok none s := by
        rw [tryCatch_run, map_run, hrun]
        rfl
      rw [Walk.target, bind_run_ok hcatch, Library.node?, ha]
      rfl

end Walk

/-! ## The decision about a reference -/

/-- What is done with a reference. -/
inductive Verdict where
  /-- It becomes a link with this text. -/
  | link (text : String)
  /-- Its target is taken in where it stands. -/
  | inline
  /-- Its target becomes a component schema, under this name if that is free. -/
  | hoist (wanted : String)
  deriving DecidableEq, Repr

/-- Where the component schema of a name stands. -/
def Pointer.home (name : String) : Pointer := Pointer.componentSchemas.member name

/-- Decides about the reference at a pointer and position that denotes `target`. -/
def verdict (rootUrl target : Url) (pointer : Pointer) (position : Position) (s : Progress) :
    Verdict :=
  if target.document = rootUrl then .link ("#" ++ target.fragment.getD "")
  else
    match s.names.lookup target with
    | some name =>
      if pointer = Pointer.home name ∧ (s.hoisted.lookup name).isNone then .inline
      else .link ("#" ++ (Pointer.home name).text)
    | none =>
      match s.places.lookup target with
      | some place => .link ("#" ++ place.text)
      | none =>
        match hoistName? target.document (target.fragment.getD "") position with
        | none => .inline
        | some wanted => .hoist wanted

namespace Progress

/-- The progress with the place of a target noted. -/
def atPlace (s : Progress) (target : Url) (pointer : Pointer) : Progress :=
  { s with places := (target, pointer) :: s.places }

/-- The progress with a name given to a target. -/
def withName (s : Progress) (target : Url) (name : String) : Progress :=
  { s with taken := name :: s.taken, names := (target, name) :: s.names }

/-- The progress with a component schema taken in. -/
def withSchema (s : Progress) (name : String) (schema : Json) : Progress :=
  { s with hoisted := Members.set name schema s.hoisted }

end Progress

/-- Takes in the node of a target and walks it, relative to its own document. -/
def takeIn (source : Source) (rootUrl : Url) (fuel : Nat) (base target : Url) (text : String)
    (pointer : Pointer) (position : Position) : Walk Json := do
  let node ← Walk.target source base target.document (target.fragment.getD "") text
  node.walk (replaceReference source rootUrl fuel target.document) pointer position

/-- A reference that does not join its base is reported as it was written. -/
theorem joinReference_eq_error {base : Url} {text : String} {error : Error}
    (h : joinReference base text = .error error) : error = .unresolvedReference text base.text := by
  unfold joinReference at h
  split at h
  · simp at h
  · cases h
    rfl

/-- A walk does with a reference what the verdict on it says. -/
theorem replaceReference_run (source : Source) (rootUrl : Url) (fuel : Nat) (base : Url)
    (value : Json) (text : String) (pointer : Pointer) (position : Position) (s : Progress) :
    replaceReference source rootUrl (fuel + 1) base value text pointer position s =
      match joinReference base text with
      | .error error => .error error s
      | .ok target =>
        match verdict rootUrl target pointer position s with
        | .link new => .ok (value.withReference new) s
        | .inline =>
          takeIn source rootUrl fuel base target text pointer (.ofPointer pointer)
            (s.atPlace target pointer)
        | .hoist wanted =>
          let name := Walk.freeName s.taken wanted
          match takeIn source rootUrl fuel base target text (Pointer.home name) .schema
              (s.withName target name) with
          | .ok schema s' =>
            .ok (value.withReference ("#" ++ (Pointer.home name).text)) (s'.withSchema name schema)
          | .error error s' => .error error s' := by
  unfold replaceReference
  cases joinReference base text with
  | error error => rfl
  | ok target =>
      simp only [verdict, Walk.bind_run, Walk.pure_run]
      by_cases hroot : target.document = rootUrl
      · simp only [if_pos hroot, Walk.pure_run]
      · simp only [if_neg hroot, Walk.bind_run, Walk.get_run]
        cases s.names.lookup target with
        | some name =>
            by_cases halias : pointer = Pointer.home name ∧ (s.hoisted.lookup name).isNone
            · simp only [if_pos halias]
              unfold Pointer.home at halias
              rw [if_pos halias]
              rfl
            · simp only [if_neg halias]
              unfold Pointer.home at halias
              rw [if_neg halias]
              rfl
        | none =>
            cases s.places.lookup target with
            | some place => rfl
            | none =>
                cases hoistName? target.document (target.fragment.getD "") position with
                | none => rfl
                | some wanted =>
                    have hname : Walk.takeName target wanted s =
                        .ok (Walk.freeName s.taken wanted)
                          (s.withName target (Walk.freeName s.taken wanted)) := rfl
                    dsimp only
                    rw [Walk.bind_run_ok hname]
                    show (takeIn source rootUrl fuel base target text (Pointer.home _) .schema >>= _)
                      _ = _
                    rw [Walk.bind_run]
                    cases takeIn source rootUrl fuel base target text
                      (Pointer.home (Walk.freeName s.taken wanted)) .schema
                      (s.withName target (Walk.freeName s.taken wanted)) <;> rfl

end OpenApi
