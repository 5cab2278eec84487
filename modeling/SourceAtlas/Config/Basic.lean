import SourceAtlas.Number.Binary64

/-!
# The configuration of an analyzer

Limits and locations for one analyzer.  They are passed explicitly to every operation, so a job can
have limits of its own.  Limits are whole numbers of any sign; a negative one admits nothing.
-/

namespace SourceAtlas

/-- The number of bytes in a mebibyte. -/
def mebibyte : Int := 1024 * 1024

/-- Names of directories that hold nothing of interest, such as build output and packages. -/
def defaultIgnoredDirs : List String :=
  ["node_modules", ".git", "dist", "build", "coverage", ".next", ".nuxt", ".svelte-kit", ".cache",
    ".turbo", ".vite", "out"]

/-- Limits and locations for one analyzer. -/
structure Config where
  maxUploadBytes : Int := 400 * mebibyte
  maxTotalBytes : Int := 1500 * mebibyte
  maxFileBytes : Int := 30 * mebibyte
  maxFiles : Int := 15000
  ignoredDirs : List String := defaultIgnoredDirs
  cleanupTtl : Binary64 := .ofInt 3600
  cleanupInterval : Binary64 := .ofInt 60
  uploadsDir : String := "uploads"
  extractedDir : String := "extracted"
  topDegree : Int := 8
  logLevel : String := "INFO"

end SourceAtlas
