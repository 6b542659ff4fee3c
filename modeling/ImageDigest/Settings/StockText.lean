namespace ImageDigest.Settings

def stockLines : List String := [
  "# pixprint configuration",
  "# ======================",
  "# All settings are optional. Remove or comment out any you don't need.",
  "# Values shown below are the defaults. Unknown keys will cause an error.",
  "",
  "# ---------------------------------------------------------------------------",
  "# Palette extraction",
  "# ---------------------------------------------------------------------------",
  "[palette]",
  "# Number of representative colors to extract.",
  "color_count = 5",
  "",
  "# Clustering passes. Always runs exactly this many; there is no early exit.",
  "iterations = 10",
  "",
  "# The image is downsampled to fit inside sample_size x sample_size before",
  "# clustering. Larger samples are slower and rarely change the result.",
  "sample_size = 100",
  "",
  "# \"kmeans\": iterative clustering with deterministic seeds (recommended).",
  "# \"bucket\": round each channel to bucket_step and count (faster, coarser).",
  "strategy = \"kmeans\"",
  "bucket_step = 10",
  "",
  "# Share of the sample the dominant color needs for \"monochromatic\".",
  "monochromatic_threshold = 0.8",
  "",
  "# ---------------------------------------------------------------------------",
  "# Perceptual hashing",
  "# ---------------------------------------------------------------------------",
  "[hashing]",
  "# \"dhash\" (gradient based) or \"ahash\" (mean based). Both are 64 bits.",
  "algorithm = \"dhash\"",
  "",
  "# Minimum similarity (1 - distance / 64) for two images to count as duplicates.",
  "similarity_threshold = 0.9",
  "",
  "# ---------------------------------------------------------------------------",
  "# Sharpness scoring",
  "# ---------------------------------------------------------------------------",
  "[quality]",
  "# score = round(min(cap, sqrt(laplacian_variance) / divisor))",
  "# Both numbers are heuristics, not calibrated units.",
  "divisor = 10.0",
  "cap = 100.0",
  "",
  "# Pixel ceiling for scoring. 0 scores buffers of any size.",
  "max_pixels = 40000000",
  "",
  "# \"downsample\": shrink oversized buffers under the ceiling first.",
  "# \"reject\": refuse oversized buffers with an error.",
  "oversize = \"downsample\"",
  "",
  "# ---------------------------------------------------------------------------",
  "# Processing",
  "# ---------------------------------------------------------------------------",
  "[processing]",
  "# Maximum parallel workers for batch commands.",
  "# Omit or comment out to auto-detect (= number of CPU cores).",
  "# max_processes = 4"]

def stockText : String := String.join (stockLines.map (· ++ "\n"))

end ImageDigest.Settings
