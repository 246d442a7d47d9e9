import PropertyWeaver.Weaving.Pass

/-!
# Weaving a file

A module file is read, the modules it needs are loaded, the module is woven, and the file is
replaced.
-/

set_option autoImplicit false

namespace PropertyWeaver

/-- What is left after weaving a file: the answer, the resolver with the modules it has loaded, and
the files. -/
structure WeaveOutcome where
  answer : Except WeaveError WeaveReport
  resolver : Resolver
  files : FileSystem

/-- Weaves the module in a file. The file is written only if the pass succeeds and the module had
not been woven before; modules loaded on the way are kept in any case. -/
def weaveFile (files : FileSystem) (resolver : Resolver) (configuration : Configuration)
    (path : String) : WeaveOutcome :=
  match files.readModule path with
  | .error error => ⟨.error (.storage error), resolver, files⟩
  | .ok module =>
      match resolver.preload files module configuration with
      | (.error error, resolver) => ⟨.error (.storage error), resolver, files⟩
      | (.ok (), resolver) =>
          match module.weave resolver configuration with
          | .error error => ⟨.error error, resolver, files⟩
          | .ok (woven, report) =>
              if report.alreadyInstrumented then ⟨.ok report, resolver, files⟩
              else
                match files.saveModule path woven with
                | (.error error, files) => ⟨.error (.storage error), resolver, files⟩
                | (.ok (), files) => ⟨.ok report, resolver, files⟩

end PropertyWeaver
