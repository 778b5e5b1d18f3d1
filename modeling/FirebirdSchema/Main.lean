import FirebirdSchema.Sample

/-!
# The demonstration program

Prints the script of the sample schema.
-/

/-- Prints the report on the sample schema and ends with its exit code. -/
def main : IO UInt32 := do
  let report := FirebirdSchema.Sample.report
  (← IO.getStdout).putStr report.output
  (← IO.getStderr).putStr report.diagnostics
  return report.exitCode
