import SchemaDiagram.Report

/-! Schema files held in memory, by path. -/

set_option autoImplicit false

namespace SchemaDiagram

structure MemorySource where
  files : List (Path × Text) := []
  convention : Convention := .plain

namespace MemorySource

-- A path that is the same as one already there replaces its text and leaves its spelling.
def insert (memory : MemorySource) (path : Path) (text : Text) : MemorySource :=
  if memory.files.any (·.1.same path) then
    { memory with files := memory.files.map fun file => if file.1.same path then (file.1, text) else file }
  else { memory with files := memory.files ++ [(path, text)] }

def ofFiles (convention : Convention) (files : List (Path × Text)) : MemorySource :=
  files.foldl (fun memory file => memory.insert file.1 file.2) ⟨[], convention⟩

def isListed (memory : MemorySource) (dir path : Path) : Bool :=
  (path.parent?.getD ⟨[]⟩).same dir && path.fileName?.any memory.convention.admits

def list (memory : MemorySource) (dir : Path) : List Path :=
  ((memory.files.map Prod.fst).filter (memory.isListed dir)).mergeSort Path.notAfter

def read (memory : MemorySource) (path : Path) : Option Text :=
  (memory.files.find? (·.1.same path)).map Prod.snd

def source (memory : MemorySource) : Source := ⟨memory.list, memory.read⟩

end MemorySource

end SchemaDiagram
