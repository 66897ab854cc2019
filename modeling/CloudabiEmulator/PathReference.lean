import CloudabiEmulator.PathLoop

/-! A recursive reference resolver that walks a path from the handle's directory as POSIX
does, expanding a symbolic link by splicing its target in front of the rest of the path,
and the comparison of the emulated `path_get` with it. The resolver follows POSIX resolution,
not the code. The loop gives up the expansion of a symbolic link met
before the last component as soon as `openat(…, O_DIRECTORY | O_NOFOLLOW)` reports anything
but `ELOOP` or `EMLINK`, and a host may report `ENOTDIR` there. -/

namespace CloudabiEmulator.Path

/-- The reference resolver: `dirs` is the stack of directories entered below `base`,
`expansions` the symbolic-link expansions still allowed, and `steps` bounds the number of
components walked (`none` when they run out). It yields the directory and the residual
path (`.` when no final entry is named). -/
def posixResolve (fs : Tree) (base : Dir) (follow needsFinalComponent : Bool) :
    (steps expansions : Nat) → (dirs : List Dir) → (p : List Char) →
      Option (Except Errno (Dir × List Char))
  | 0, _, _, _ => none
  | steps + 1, expansions, dirs, p =>
    let c := splitComponent p
    let cwd := dirs.headD base
    if c.file.isEmpty then some (.error (if c.endsWithSlashes then .enotcapable else .enoent))
    else if c.file = ['.'] then
      if c.rest.isEmpty then some (.ok (cwd, ['.']))
      else posixResolve fs base follow needsFinalComponent steps expansions dirs c.rest
    else if c.file = ['.', '.'] then
      match dirs with
      | [] => some (.error .enotcapable)
      | _ :: up =>
        if c.rest.isEmpty then some (.ok (up.headD base, ['.']))
        else posixResolve fs base follow needsFinalComponent steps expansions up c.rest
    else
      let final := c.rest.isEmpty && !(c.endsWithSlashes && !needsFinalComponent)
      match fs (cwd ++ [c.file]) with
      | some (.symlink t) =>
        if final && !(c.endsWithSlashes || follow) then some (.ok (cwd, p))
        else
          match expansions with
          | 0 => some (.error .eloop)
          | expansions + 1 =>
            posixResolve fs base follow needsFinalComponent steps expansions dirs
              (withSlash c.endsWithSlashes t ++ c.rest)
      | some .directory =>
        if final then some (.ok (cwd, p))
        else if c.rest.isEmpty then some (.ok (cwd ++ [c.file], ['.']))
        else
          posixResolve fs base follow needsFinalComponent steps expansions
            ((cwd ++ [c.file]) :: dirs) c.rest
      | some .regular => some (if final then .ok (cwd, p) else .error .enotdir)
      | none => some (if final then .ok (cwd, p) else .error .enoent)

/-- On a host whose `openat(…, O_DIRECTORY | O_NOFOLLOW)` reports `ENOTDIR` for a symbolic
link, as POSIX permits, `path_get` fails on `l/f` with `ENOTDIR`, while the reference
resolver follows `l` to `x` and yields `f` in `x`. -/
theorem pathGet_enotdir_host_disagrees :
    pathGetEmulated (Host.ofTree linkToDirectory .enotdir) [] false false ['l', '/', 'f'] =
      .ok (.error .enotdir) ∧
    posixResolve linkToDirectory [] false false 8 127 [] ['l', '/', 'f'] =
      some (.ok ([['x']], ['f'])) := by
  have h1 : step (Host.ofTree linkToDirectory .enotdir) [] false false (initState ['l', '/', 'f']) =
      .exit (.fail (advance (initState ['l', '/', 'f']) (splitComponent ['l', '/', 'f']))
        .enotdir) :=
    rfl
  exact ⟨by rw [pathGetEmulated, run_of_exit h1]; rfl, rfl⟩

end CloudabiEmulator.Path
