import Brother420.Fat32.Driver

/-! # The commands of the shell

The functions of `user-shell.c` that change directories, create, copy, remove and
move, with the directory stack of `currentdirectorystack.c` and the system calls they use.  A
command line is the memory that its pointer designates.  A store outside an
array, and a loop that runs out of the line, are the result `none`.
-/

namespace Brother420.Shell

open Packed (Bytes Layout)
open Fat32

/-! ## The directory stack -/

/-- struct CURRENT_DIR_STACK, without the names. -/
structure CurrentDirStack where
  cdStack : Fin 256 → UInt8
  top : Int

namespace CurrentDirStack

def initCurrentDirStack (cds : CurrentDirStack) : CurrentDirStack where
  cdStack := Function.update cds.cdStack 0 2
  top := 0

def pushCurrentDir (cds : CurrentDirStack) (dir : UInt8) : Option CurrentDirStack :=
  let top := cds.top + 1
  if h : 0 ≤ top ∧ top < 256 then some ⟨Function.update cds.cdStack ⟨top.toNat, by omega⟩ dir, top⟩ else none

/-- The caller drops the value that is popped. -/
def popCurrentDir (cds : CurrentDirStack) : CurrentDirStack := { cds with top := cds.top - 1 }

def getTopCurrentDir (cds : CurrentDirStack) : Option UInt8 :=
  if h : 0 ≤ cds.top ∧ cds.top < 256 then some (cds.cdStack ⟨cds.top.toNat, by omega⟩) else none

end CurrentDirStack

/-- The kernel and the globals of the shell. -/
structure ShellState where
  kernel : Kernel
  currentDirectoryCluster : Nat
  currentDirStack : CurrentDirStack

/-! ## System calls -/

/-- System call 8: read one cluster into a directory table. -/
def readTable (k : Kernel) (cluster : Nat) : FAT32DirectoryTable :=
  FAT32DirectoryTable.layout.symm (k.readClusters cluster)

/-- System call 13: write one cluster from a directory table. -/
def writeTable (k : Kernel) (table : FAT32DirectoryTable) (cluster : Nat) : Kernel :=
  k.writeClusters (FAT32DirectoryTable.layout table) cluster

/-- System call 10: pop, and store the new top in `current_directory_cluster`. -/
def popAndGetTop (s : ShellState) : Option ShellState := do
  let cds := s.currentDirStack.popCurrentDir
  let top ← cds.getTopCurrentDir
  some { s with currentDirStack := cds, currentDirectoryCluster := top.toNat }

/-- System call 11: the parameter `dir` has 8 bits. -/
def pushDirectory (s : ShellState) (cluster : Nat) : Option ShellState := do
  let cds ← s.currentDirStack.pushCurrentDir (UInt8.ofNat cluster)
  some { s with currentDirStack := cds }

/-! ## Searching a table -/

/-- The first slot in use behind the self entry with this name and extension. -/
def findLive (table : FAT32DirectoryTable) (name : Bytes 8) (ext : Bytes 3) : Option (Fin 64) :=
  Fin.find? fun i =>
    i ≠ 0 && decide (table i).Live && memcmp (table i).name name == 0 && memcmp (table i).ext ext == 0

/-- The first slot behind the self entry with this name and extension, in use or not. -/
def findEntry (table : FAT32DirectoryTable) (name : Bytes 8) (ext : Bytes 3) : Option (Fin 64) :=
  Fin.find? fun i => i ≠ 0 && memcmp (table i).name name == 0 && memcmp (table i).ext ext == 0

/-- The first free slot behind the self entry. -/
def findFree (table : FAT32DirectoryTable) : Option (Fin 64) :=
  Fin.find? fun i => i ≠ 0 && !decide (table i).Live

/-! ## cd -/

def dotDot {n : Nat} : Bytes n := text ['.', '.']

def noExt : Bytes 3 := fun _ => 0

def commandCallCd (s : ShellState) (path : Memory) : Option (UInt8 × ShellState) :=
  let table := readTable s.kernel s.currentDirectoryCluster
  let pathName := path.bytes 0 8
  if memcmp (path.bytes 0 2) dotDot = 0 then
    if s.currentDirectoryCluster = 2 then some (1, s)
    else do
      let s ← popAndGetTop s
      some (0, s)
  else
    -- the size is not looked at: a file without an extension is entered too
    match findLive table pathName noExt with
    | some i => do
      let s ← pushDirectory { s with currentDirectoryCluster := (table i).cluster } (table i).cluster
      some (0, s)
    | none => some (1, s)

/-! ## Reading a command line -/

/-- The number of bytes from `start` on before the first stop, at most `limit`. -/
def span (stop : UInt8 → Bool) (line : Memory) (start : Nat) : (limit : Nat) → Nat
  | 0 => 0
  | limit + 1 => if stop (line start) then 0 else span stop line (start + 1) limit + 1

/-- `count` bytes from `start` on, padded with zeros. -/
def field (n : Nat) (line : Memory) (start count : Nat) : Bytes n :=
  fun i => if i.val < count then line (start + i) else 0

def space : UInt8 := ' '.toUInt8

def dot : UInt8 := '.'.toUInt8

def slash : UInt8 := '/'.toUInt8

/-! ## cd with several names -/

/-- `new_path`: the first `j` characters with a NUL behind them, in an array that held `stack`. -/
def newPath (stack path : Memory) (j : Nat) : Memory :=
  fun a => if a < j then path a else if a = j then 0 else stack a

/-- `stack n` is what the array `new_path` holds when `n` more calls may be made.  A line without
    NUL or slash in 256 characters, and a name longer than the array, are `none`. -/
def commandCallMultiCd (s : ShellState) (stack : Nat → Memory) : (fuel : Nat) → Memory → Option ShellState
  | 0, _ => none
  | fuel + 1, path =>
    let i := span (fun c => c == 0 || c == slash) path 0 256
    if i = 256 then none
    else
      let j := if path i = slash then i else 0
      if j = 0 then do
        let (_, s) ← commandCallCd s path
        some s
      else if 64 ≤ j then none
      else do
        let (retVal, s) ← commandCallCd s (newPath (stack fuel) path j)
        if retVal = 0 then commandCallMultiCd s stack fuel (fun a => path (j + 1 + a)) else some s

/-! ## mkdir -/

/-- The name is the eight characters behind `mkdir `; the return code is not looked at. -/
def commandCallMkdir (s : ShellState) (line : Memory) : Option ShellState := do
  let request : FAT32DriverRequest :=
    { buf := fun _ => 0, name := line.bytes 6 8, ext := noExt,
      parentClusterNumber := UInt32.ofNat s.currentDirectoryCluster, bufferSize := 0 }
  let (_, kernel) ← write s.kernel request
  some { s with kernel }

/-! ## rm -/

/-- The name and the extension that `rm` looks for.  A name that a NUL follows has no extension. -/
def parseRm (line : Memory) : Option (Bytes 8 × Bytes 3) :=
  let i := span (fun c => c == dot || c == space) line 3 8
  if line (i + 3) = space then none
  else if line (i + 3) = 0 then some (field 8 line 3 i, noExt)
  else
    let z := span (· == space) line (i + 1 + 3) 3
    if z = 3 ∧ line (i + 1 + z + 3) ≠ 0 ∧ line (i + 1 + z + 3) ≠ space then none
    else some (field 8 line 3 i, field 3 line (i + 1 + 3) z)

/-- The size of the entry that is found goes into the request, where it chooses the path of `delete`. -/
def commandCallRm (s : ShellState) (line : Memory) : Option ShellState :=
  let table := readTable s.kernel s.currentDirectoryCluster
  match parseRm line with
  | none => some s
  | some (name, ext) =>
    match findLive table name ext with
    | none => some s
    | some m => do
      let request : FAT32DriverRequest :=
        { buf := fun _ => 0, name, ext, parentClusterNumber := UInt32.ofNat s.currentDirectoryCluster,
          bufferSize := (table m).filesize }
      let (_, kernel) ← delete s.kernel request
      some { s with kernel }

/-! ## cat -/

/-- The name and the extension that `cat` looks for. -/
def parseCat (line : Memory) : Option (Bytes 8 × Bytes 3) :=
  let i := span (fun c => c == dot || c == space) line 4 8
  if line (i + 4) = space then none
  else
    let z := span (· == space) line (i + 1 + 4) 3
    some (field 8 line 4 i, field 3 line (i + 1 + 4) z)

/-- The size of the request, which is also printed when there is no such file. -/
def catSize (table : FAT32DirectoryTable) (name : Bytes 8) (ext : Bytes 3) : UInt32 :=
  match findLive table name ext with
  | some m => (table m).filesize
  | none => 0

/-! ## cp -/

/-- The first name of `cp`, its extension, and the index `j` of the blank behind them. -/
def parseCpSource (line : Memory) : Option (Bytes 8 × Bytes 3 × Nat) :=
  let i := span (fun c => c == dot || c == space) line 3 8
  if line (i + 3) = space then none
  else if i = 8 ∧ line (i + 3) ≠ dot then none
  else
    let z := span (· == space) line (i + 1 + 3) 3
    if z = 3 ∧ line (i + 1 + z + 3) ≠ space then none
    else some (field 8 line 3 i, field 3 line (i + 1 + 3) z, i + 1 + z)

/-- The second name of `cp`; an empty extension leaves that of the first. -/
def parseCpTarget (line : Memory) (ext : Bytes 3) (j : Nat) : Option (Bytes 8 × Bytes 3) :=
  let k := span (fun c => c == dot || c == space || c == 0) line (j + 4) 8
  let name := field 8 line (j + 4) k
  let j := j + k
  if line (j + 4) = space then none
  else if k = 8 ∧ line (j + 4) ≠ dot ∧ line (j + 4) ≠ 0 then none
  else
    let l := span (fun c => c == space || c == 0) line (j + 5) 3
    if l = 3 ∧ line (l + j + 5) ≠ space ∧ line (l + j + 5) ≠ 0 then none
    else some (name, if l = 0 then ext else field 3 line (j + 5) l)

/-- `cbuf` is the buffer of four clusters and the memory behind it, as `read` finds it.  The
    result is the memory that `read` leaves, where it was called, and the shell. -/
def commandCallCp (s : ShellState) (line cbuf : Memory) : Option (Option Memory × ShellState) :=
  let table := readTable s.kernel s.currentDirectoryCluster
  match parseCpSource line with
  | none => some (none, s)
  | some (name, ext, j) =>
    match findLive table name ext with
    | none => some (none, s)
    | some m =>
      let request : FAT32DriverRequest :=
        { buf := cbuf, name, ext, parentClusterNumber := UInt32.ofNat s.currentDirectoryCluster,
          bufferSize := (table m).filesize }
      -- the return code is ignored, and the request is written with what the buffer holds then
      let (_, kernel, buf) := read s.kernel request
      match parseCpTarget line ext j with
      | none => some (some buf, { s with kernel })
      | some (newName, newExt) => do
        let (_, kernel) ← write kernel { request with buf, name := newName, ext := newExt }
        some (some buf, { s with kernel })

/-! ## mv -/

inductive MvTarget
  | rename (newName : Bytes 8) (newExt : Bytes 3)
  | parent
  | folder (newPath : Bytes 8)

/-- The entry that `mv` is about: its name, its extension, whether one was typed, and the index of
    the blank behind them. -/
def parseMvSource (path : Memory) : Option (Bytes 8 × Bytes 3 × Bool × Nat) :=
  let i := span (fun c => c == space || c == dot) path 0 8
  if path i = space then some (field 8 path 0 i, noExt, false, i)
  else if path i = dot then
    let j := span (· == space) path (i + 1) 3
    if path (i + 1 + j) = space then some (field 8 path 0 i, field 3 path (i + 1) j, true, i + 1 + j)
    else none
  else none

/-- What to do with it.  A new name ends after 8 bytes; a new extension or a folder that is
    longer than its array is `none`. -/
def parseMvTarget (path : Memory) (isFile : Bool) (i : Nat) : Option MvTarget :=
  if path (i + 1) ≠ slash then
    let a := span (fun c => c == 0 || c == dot) path (i + 1) 8
    let newName := field 8 path (i + 1) a
    let i := i + 1 + a
    if isFile then
      let k := span (· == 0) path (i + 1) 3
      if path (i + 1 + k) = 0 then some (.rename newName (field 3 path (i + 1) k)) else none
    else some (.rename newName noExt)
  else if path (i + 2) = dot ∧ path (i + 3) = dot then some .parent
  else
    let kk := span (· == 0) path (i + 2) 8
    if path (i + 2 + kk) = 0 then some (.folder (field 8 path (i + 2) kk)) else none

/-- The entry under a new name. -/
def renamed (e : FAT32DirectoryEntry) (newName : Bytes 8) (newExt : Bytes 3) :
    FAT32DirectoryEntry :=
  { e with name := newName, ext := newExt }

/-- The entry as `mv` clears it. -/
def cleared (e : FAT32DirectoryEntry) : FAT32DirectoryEntry :=
  { e with
    name := fun _ => 0
    ext := noExt
    filesize := 0
    attributeByte := 0
    userAttribute := 0
    clusterHigh := 0
    clusterLow := 0 }

/-- A free slot as `mv` fills it. -/
def filled (e : FAT32DirectoryEntry) (name : Bytes 8) (ext : Bytes 3) (bufferSize : UInt32)
    (selfLocation : Nat) :
    FAT32DirectoryEntry :=
  { e with
    name := name
    ext := ext
    filesize := bufferSize
    attributeByte := 0
    userAttribute := uattrNotEmpty
    clusterHigh := 0
    clusterLow := UInt16.ofNat selfLocation }

def mvRename (s : ShellState) (name : Bytes 8) (ext : Bytes 3) (newName : Bytes 8)
    (newExt : Bytes 3) : ShellState :=
  let table := readTable s.kernel s.currentDirectoryCluster
  match findLive table name ext with
  | none => s
  | some m =>
    let location := (table m).cluster
    let table2 := readTable s.kernel location
    let table := Function.update table m (renamed (table m) newName newExt)
    -- for a file, this is the first cluster of its data
    let table2 := Function.update table2 0 (renamed (table2 0) newName newExt)
    { s with kernel := writeTable (writeTable s.kernel table s.currentDirectoryCluster) table2 location }

/-- The loop over `o`: fill the first free slot of a table and store the table. -/
def insertEntry (k : Kernel) (table2 : FAT32DirectoryTable) (location : Nat) (name : Bytes 8)
    (ext : Bytes 3)
    (bufferSize : UInt32) (selfLocation : Nat) : Kernel :=
  match findFree table2 with
  | none => k
  | some o => writeTable k (Function.update table2 o (filled (table2 o) name ext bufferSize selfLocation)) location

/-- The branch behind the loop over `n`: go up, insert there, and go back to the directory `temporal`. -/
def mvParentRest (s : ShellState) (temporal : Bytes 8) (name : Bytes 8) (ext : Bytes 3)
    (bufferSize : UInt32)
    (selfLocation : Nat) : Option ShellState := do
  let (_, s) ← commandCallCd s (Memory.store (fun _ => 0) 0 (dotDot : Bytes 2))
  let table2 := readTable s.kernel s.currentDirectoryCluster
  -- stored where the self entry of the table points
  let kernel := insertEntry s.kernel table2 (table2 0).cluster name ext bufferSize selfLocation
  let (_, s) ← commandCallCd { s with kernel } (Memory.store (fun _ => 0) 0 temporal)
  some s

/-- `selfLocation` is what that variable holds when no entry has the name. -/
def mvParent (s : ShellState) (name : Bytes 8) (ext : Bytes 3) (selfLocation : Nat) :
    Option ShellState :=
  let table := readTable s.kernel s.currentDirectoryCluster
  match findEntry table name ext with
  | none => mvParentRest s (table 0).name name ext 0 selfLocation
  | some n =>
    let kernel := writeTable s.kernel (Function.update table n (cleared (table n))) s.currentDirectoryCluster
    mvParentRest { s with kernel } (table 0).name name ext (table n).filesize (table n).cluster

/-- The body of the loop over `m`, on the table as the loop keeps it in memory. -/
def mvFolderStep (currentDirectoryCluster : Nat) (name : Bytes 8) (ext : Bytes 3)
    (newPath : Bytes 8)
    (acc : Kernel × FAT32DirectoryTable) (m : Fin 64) : Kernel × FAT32DirectoryTable :=
  let (k, table) := acc
  if m ≠ 0 ∧ (table m).Live ∧ memcmp (table m).name newPath = 0 ∧ memcmp (table m).ext noExt = 0 then
    match findEntry table name ext with
    | none => (k, table)
    | some n =>
      let location := (table m).cluster
      let k := insertEntry k (readTable k location) location name ext (table n).filesize (table n).cluster
      let table := Function.update table n (cleared (table n))
      (writeTable k table currentDirectoryCluster, table)
  else acc

def mvFolder (s : ShellState) (name : Bytes 8) (ext : Bytes 3) (newPath : Bytes 8) : ShellState :=
  let table := readTable s.kernel s.currentDirectoryCluster
  let step := mvFolderStep s.currentDirectoryCluster name ext newPath
  { s with kernel := ((List.finRange 64).foldl step (s.kernel, table)).1 }

def commandCallMv (s : ShellState) (path : Memory) (selfLocation : Nat) : Option ShellState := do
  let (name, ext, isFile, i) ← parseMvSource path
  match ← parseMvTarget path isFile i with
  | .rename newName newExt => some (mvRename s name ext newName newExt)
  | .parent => mvParent s name ext selfLocation
  | .folder newPath => some (mvFolder s name ext newPath)

end Brother420.Shell
