import PipeScript.Command.Host

/-!
# Hosts that keep to their task

Commands run on a host that is not known. What is seen of its states is told by a `View`: which file
a path leads to, which bytes the files hold, and all that was printed. A host is lawful
(`Host.Lawful`) if reading changes nothing that is seen, printing adds to what was printed, a write
that fails changes nothing, and one that goes well changes the file that its path leads to and no
other one.

`Store.host` is a small host of this kind, which holds files by their paths.
-/

namespace PipeScript

/-! ## What is seen of a host -/

/-- What is seen of the states of a host. Commands neither move files nor make links, so what a path
leads to does not depend on the state. -/
structure View (σ : Type) where
  /-- The files that can be told apart, there or not. -/
  File : Type
  /-- The file that a path leads to. A directory is none, and neither is a device. -/
  file? : String → Option File
  /-- The bytes of a file that is there. -/
  bytes? : σ → File → Option ByteArray
  /-- All that was printed. -/
  printed : σ → String

namespace View

variable {σ : Type} (view : View σ)

/-- Between two states nothing was printed, and no file was changed. -/
structure Same (s s' : σ) : Prop where
  printed_eq : view.printed s' = view.printed s
  bytes_eq : ∀ file, view.bytes? s' file = view.bytes? s file

/-- Between two states a text was printed, and no file was changed. -/
structure Prints (s : σ) (text : String) (s' : σ) : Prop where
  printed_eq : view.printed s' = view.printed s ++ text
  bytes_eq : ∀ file, view.bytes? s' file = view.bytes? s file

/-- Between two states the file of a path was given some bytes, and no other file was changed.
Nothing was printed. -/
structure Writes (s : σ) (path : String) (bytes : ByteArray) (s' : σ) : Prop where
  printed_eq : view.printed s' = view.printed s
  held : ∀ file, view.file? path = some file → view.bytes? s' file = some bytes
  others : ∀ file, view.file? path ≠ some file → view.bytes? s' file = view.bytes? s file

variable {view} {s s' s'' : σ} {text other path : String} {bytes : ByteArray}

theorem Same.refl (s : σ) : view.Same s s := ⟨rfl, fun _ => rfl⟩

theorem Same.trans (first : view.Same s s') (second : view.Same s' s'') : view.Same s s'' :=
  ⟨second.printed_eq.trans first.printed_eq,
    fun file => (second.bytes_eq file).trans (first.bytes_eq file)⟩

theorem Same.prints (same : view.Same s s') (prints : view.Prints s' text s'') :
    view.Prints s text s'' :=
  ⟨prints.printed_eq.trans (congrArg (· ++ text) same.printed_eq),
    fun file => (prints.bytes_eq file).trans (same.bytes_eq file)⟩

theorem Same.writes (same : view.Same s s') (writes : view.Writes s' path bytes s'') :
    view.Writes s path bytes s'' :=
  ⟨writes.printed_eq.trans same.printed_eq, writes.held,
    fun file elsewhere => (writes.others file elsewhere).trans (same.bytes_eq file)⟩

/-- Nothing happens where nothing is printed. -/
theorem Prints.refl (s : σ) : view.Prints s "" s :=
  ⟨String.append_empty.symm, fun _ => rfl⟩

theorem Prints.trans (first : view.Prints s text s') (second : view.Prints s' other s'') :
    view.Prints s (text ++ other) s'' :=
  ⟨by rw [second.printed_eq, first.printed_eq, String.append_assoc],
    fun file => (second.bytes_eq file).trans (first.bytes_eq file)⟩

end View

/-- A host keeps to its task. -/
structure Host.Lawful {σ : Type} (host : Host (StateM σ)) (view : View σ) : Prop where
  /-- Whatever a read gives, it changes nothing. -/
  read : ∀ path s, view.Same s ((host.read path).run s).2
  /-- A write that fails changes nothing. -/
  write_error : ∀ path bytes s error s',
    (host.write path bytes).run s = (.error error, s') → view.Same s s'
  /-- A write that goes well changes the file that it is about, and nothing else. -/
  write_ok : ∀ path bytes s s',
    (host.write path bytes).run s = (.ok (), s') → view.Writes s path bytes s'
  print : ∀ text s, view.Prints s text ((host.print text).run s).2

/-! ## A host of some files -/

/-- Files by their paths, the latest first, and all that was printed. -/
structure Store where
  files : List (String × ByteArray)
  printed : String

namespace Store

/-- The bytes of the latest file of a path. -/
def file? (store : Store) (path : String) : Option ByteArray := store.files.lookup path

/-- Some bytes in the place of those that a path had. -/
def put (store : Store) (path : String) (bytes : ByteArray) : Store :=
  { store with files := (path, bytes) :: store.files }

theorem file?_put (store : Store) (path : String) (bytes : ByteArray) :
    (store.put path bytes).file? path = some bytes :=
  List.lookup_cons_self

theorem file?_put_of_ne (store : Store) {path other : String} (bytes : ByteArray)
    (elsewhere : other ≠ path) : (store.put path bytes).file? other = store.file? other := by
  rw [file?, put, List.lookup_cons, beq_eq_false_iff_ne.mpr elsewhere]
  rfl

/-- Every path but the empty one may be written to. -/
def host : Host (StateM Store) where
  read path := do
    match (← get).file? path with
    | some bytes => return .ok bytes
    | none => return .error .notFound
  write path bytes := do
    if path = "" then
      return .error .notFound
    else
      modify (·.put path bytes)
      return .ok ()
  print text := modify fun store => { store with printed := store.printed ++ text }

/-- Every path leads to a file of its own. -/
def view : View Store where
  File := String
  file? path := some path
  bytes? := file?
  printed := Store.printed

theorem read_host (path : String) (store : Store) :
    (host.read path).run store =
      (match store.file? path with
        | some bytes => .ok bytes
        | none => .error .notFound, store) := by
  rw [host, StateT.run_bind, StateT.run_get, pure_bind]
  dsimp only
  cases store.file? path <;> rfl

theorem write_host (path : String) (bytes : ByteArray) (store : Store) :
    (host.write path bytes).run store =
      if path = "" then (.error .notFound, store)
      else (.ok (), store.put path bytes) := by
  by_cases empty : path = ""
  · simp only [host, if_pos empty]
    rfl
  · simp only [host, if_neg empty]
    rfl

theorem lawful_host : host.Lawful view where
  read path store := by
    rw [read_host]
    exact .refl store
  write_error path bytes store error after wrote := by
    rw [write_host] at wrote
    split at wrote
    · cases wrote
      exact .refl store
    · cases wrote
  write_ok path bytes store after wrote := by
    rw [write_host] at wrote
    split at wrote
    · cases wrote
    · cases wrote
      refine ⟨rfl, ?_, fun file elsewhere => ?_⟩
      · rintro _ ⟨⟩
        exact store.file?_put path bytes
      · exact store.file?_put_of_ne bytes fun same => elsewhere (congrArg some same.symm)
  print text store := ⟨rfl, fun _ => rfl⟩

end Store

end PipeScript
